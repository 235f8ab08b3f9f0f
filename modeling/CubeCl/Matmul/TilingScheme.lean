import Mathlib.Algebra.BigOperators.Group.List
import Mathlib.Algebra.Order.Ring.Nat
import Mathlib.Tactic.DeriveFintype

/-!
# Counts along the tiling hierarchy (`cubecl-matmul/src/components/tiling_scheme.rs`)

A tiling scheme nests elements in tiles, tiles in partitions, partitions in stages and
stages in a global partition, with a size along each of `M`, `N` and `K` at each level.
`try_count_1d` counts the children of one level in another: it hand-writes the count for
each pair of levels, as the size one level up for adjacent levels and as a product of two
counts through an intermediate level otherwise. A global partition has no size along `K`.

The counts are the product of the sizes between the two levels (`tryCount1d_eq_span`),
so they compose through every intermediate level; the `2d` and `ident` counts are products
of the `1d` ones. Products are exact (`Nat`); a panic of `count_1d` or `count_2d` is `none`.
-/

namespace CubeCl.Matmul

set_option autoImplicit false

/-- Modelled from the spec: `MatmulDim` is not in the source; the three dimensions of a
matmul. -/
inductive MatmulDim
  | m
  | n
  | k
deriving DecidableEq, Repr, Fintype

/-- Modelled from the spec: `Ident` is not in the source; the three tensors of a matmul. -/
inductive Ident
  | lhs
  | rhs
  | out
deriving DecidableEq, Repr, Fintype

/-- Modelled from the spec: `TileSize`, `PartitionSize`, `StageSize` and
`GlobalPartitionSize` are not in the source; each is a size along `m`, `n` and `k`. -/
structure Size where
  m : Nat
  n : Nat
  k : Nat
deriving DecidableEq, Repr

/-- `get(dim)`. -/
def Size.get (s : Size) : MatmulDim → Nat
  | .m => s.m
  | .n => s.n
  | .k => s.k

/-- `TilingScheme`. -/
structure TilingScheme where
  tileSize : Size
  partitionSize : Size
  stageSize : Size
  globalPartitionSize : Size
deriving DecidableEq, Repr

/-- `TilingLevel`. -/
inductive TilingLevel
  | globalPartition
  | stage
  | partition
  | tile
  | element
deriving DecidableEq, Repr, Fintype

/-- A level's depth below `GlobalPartition`: `Element < Tile < Partition < Stage <
GlobalPartition` orders levels by decreasing depth. -/
def TilingLevel.depth : TilingLevel → Nat
  | .globalPartition => 0
  | .stage => 1
  | .partition => 2
  | .tile => 3
  | .element => 4

namespace TilingScheme

/-- `try_count_1d`. -/
def tryCount1d (s : TilingScheme) (childLevel parentLevel : TilingLevel) (dim : MatmulDim) :
    Option Nat :=
  if childLevel = parentLevel then some 1 else
  match childLevel, parentLevel with
  | .stage, .globalPartition =>
    match dim with
    | .m => some s.globalPartitionSize.m
    | .n => some s.globalPartitionSize.n
    | .k => none
  | .partition, .stage => some (s.stageSize.get dim)
  | .tile, .partition => some (s.partitionSize.get dim)
  | .element, .tile => some (s.tileSize.get dim)
  | .partition, .globalPartition =>
    do return (← s.tryCount1d .partition .stage dim) * (← s.tryCount1d .stage .globalPartition dim)
  | .tile, .globalPartition =>
    do return (← s.tryCount1d .tile .stage dim) * (← s.tryCount1d .stage .globalPartition dim)
  | .element, .globalPartition =>
    do return (← s.tryCount1d .element .stage dim) * (← s.tryCount1d .stage .globalPartition dim)
  | .tile, .stage =>
    do return (← s.tryCount1d .partition .stage dim) * (← s.tryCount1d .tile .partition dim)
  | .element, .stage =>
    do return (← s.tryCount1d .tile .stage dim) * (← s.tryCount1d .element .tile dim)
  | .element, .partition =>
    do return (← s.tryCount1d .tile .partition dim) * (← s.tryCount1d .element .tile dim)
  | _, _ => none
termination_by childLevel.depth - parentLevel.depth
decreasing_by all_goals decide

/-- `try_count_2d`. -/
def tryCount2d (s : TilingScheme) (childLevel parentLevel : TilingLevel) (dim1 dim2 : MatmulDim) :
    Option Nat :=
  do return (← s.tryCount1d childLevel parentLevel dim1) * (← s.tryCount1d childLevel parentLevel dim2)

/-- `count_1d`; `none` where it panics. -/
def count1d (s : TilingScheme) (childLevel parentLevel : TilingLevel) (dim : MatmulDim) :
    Option Nat :=
  s.tryCount1d childLevel parentLevel dim

/-- `count_1d_ident_row`. -/
def count1dIdentRow (s : TilingScheme) (childLevel parentLevel : TilingLevel) : Ident → Option Nat
  | .lhs => s.count1d childLevel parentLevel .m
  | .rhs => s.count1d childLevel parentLevel .k
  | .out => s.count1d childLevel parentLevel .m

/-- `count_1d_ident_col`. -/
def count1dIdentCol (s : TilingScheme) (childLevel parentLevel : TilingLevel) : Ident → Option Nat
  | .lhs => s.count1d childLevel parentLevel .k
  | .rhs => s.count1d childLevel parentLevel .n
  | .out => s.count1d childLevel parentLevel .n

/-- `count_2d`; `none` where it panics. -/
def count2d (s : TilingScheme) (childLevel parentLevel : TilingLevel) (dim1 dim2 : MatmulDim) :
    Option Nat :=
  s.tryCount2d childLevel parentLevel dim1 dim2

/-- `count_2d_ident`. -/
def count2dIdent (s : TilingScheme) (childLevel parentLevel : TilingLevel) : Ident → Option Nat
  | .lhs => s.count2d childLevel parentLevel .m .k
  | .rhs => s.count2d childLevel parentLevel .k .n
  | .out => s.count2d childLevel parentLevel .m .n

/-- `elements_in_stage_k`, the one count method of the `count_1d_method!` family a modelled
function reads. -/
def elementsInStageK (s : TilingScheme) : Option Nat :=
  s.count1d .element .stage .k

/-! ## The counts as products of the sizes between two levels -/

/-- The size of a level along `dim`, counted in the level above it. A global partition has no
size along `K`. -/
def factor (s : TilingScheme) (dim : MatmulDim) : TilingLevel → Option Nat
  | .element => some (s.tileSize.get dim)
  | .tile => some (s.partitionSize.get dim)
  | .partition => some (s.stageSize.get dim)
  | .stage =>
    match dim with
    | .k => none
    | .m => some s.globalPartitionSize.m
    | .n => some s.globalPartitionSize.n
  | .globalPartition => some 1

/-- The levels from `GlobalPartition` down. -/
def levels : List TilingLevel := [.globalPartition, .stage, .partition, .tile, .element]

/-- The levels below `parent`, down to `child`. -/
def between (child parent : TilingLevel) : List TilingLevel :=
  (levels.take (child.depth + 1)).drop (parent.depth + 1)

/-- The product of the sizes of the levels between `child` and `parent`; `none` where one of
them has no size. -/
def span (s : TilingScheme) (child parent : TilingLevel) (dim : MatmulDim) : Option Nat :=
  ((between child parent).mapM (s.factor dim)).map List.prod

/-- The levels between two levels split at every level between them. -/
theorem between_append : ∀ c b p : TilingLevel, p.depth ≤ b.depth → b.depth ≤ c.depth →
    between c p = between b p ++ between c b := by
  decide

/-- The one step whose size depends on the dimension: there is no global partition along `k`. -/
theorem tryCount1d_stage_globalPartition (s : TilingScheme) (dim : MatmulDim) :
    s.tryCount1d .stage .globalPartition dim = s.factor dim .stage := by
  cases dim <;> rw [tryCount1d] <;> rfl

/-- `try_count_1d` is `None` on a child above its parent, and the product of the sizes between
them otherwise. -/
theorem tryCount1d_eq_span (s : TilingScheme) (c p : TilingLevel) (dim : MatmulDim) :
    s.tryCount1d c p dim = if c.depth < p.depth then none else s.span c p dim := by
  cases c <;> cases p <;>
    simp [tryCount1d, tryCount1d_stage_globalPartition, span, between, levels, factor,
      TilingLevel.depth, List.mapM.loop, Nat.mul_comm, Nat.mul_left_comm, Nat.mul_assoc]

/-- A traversal in `Option` fails exactly where one of its steps does. -/
theorem mapM_option_eq_none_iff {α β : Type} {f : α → Option β} :
    ∀ {l : List α}, l.mapM f = none ↔ ∃ a ∈ l, f a = none
  | [] => by rw [List.mapM_nil]; simp
  | a :: l => by
    have ih := @mapM_option_eq_none_iff α β f l
    rw [List.mapM_cons]
    cases h : f a with
    | none => simpa using Or.inl h
    | some b => cases hl : l.mapM f <;> rw [hl] at ih <;> simpa [h] using ih

/-- A product of sizes is undefined exactly when the sizes include a global partition's
along `K`. -/
theorem span_eq_none_iff (s : TilingScheme) {c p : TilingLevel} {dim : MatmulDim} :
    s.span c p dim = none ↔ .stage ∈ between c p ∧ dim = .k := by
  rw [span, Option.map_eq_none', mapM_option_eq_none_iff]
  constructor
  · rintro ⟨l, hl, h⟩
    cases l <;> cases dim <;> simp_all [factor]
  · rintro ⟨h, rfl⟩
    exact ⟨_, h, rfl⟩

/-- A global partition's size lies between two levels exactly when the parent is the global
partition and the child is not. -/
theorem stage_mem_between : ∀ c p : TilingLevel, p.depth ≤ c.depth →
    (.stage ∈ between c p ↔ p = .globalPartition ∧ c ≠ .globalPartition) := by
  decide

/-- A product of sizes splits at every level between. -/
theorem span_split (s : TilingScheme) {c b p : TilingLevel} {dim : MatmulDim} {v : Nat}
    (hpb : p.depth ≤ b.depth) (hbc : b.depth ≤ c.depth) (h : s.span c p dim = some v) :
    ∃ x y, s.span c b dim = some x ∧ s.span b p dim = some y ∧ v = x * y := by
  rw [span, between_append c b p hpb hbc, List.mapM_append] at h
  obtain ⟨l, hl, rfl⟩ := Option.map_eq_some'.1 h
  obtain ⟨lp, hlp, h⟩ := Option.bind_eq_some.1 hl
  obtain ⟨lc, hlc, h⟩ := Option.bind_eq_some.1 h
  cases h
  exact ⟨lc.prod, lp.prod, by rw [span, hlc]; rfl, by rw [span, hlp]; rfl,
    by rw [List.prod_append, Nat.mul_comm]⟩

/-- **The counts compose along the hierarchy.** `try_count_1d` is `None` exactly on a child
above its parent, or on a global partition's size along `K`; where it is defined it is the
product of the sizes between the two levels, and so splits at every level between them; and
every `2d` and `ident` count is the product of the matching row and column counts. -/
theorem try_count_1d_composes (s : TilingScheme) :
    (∀ c p dim, s.tryCount1d c p dim = none ↔
      c.depth < p.depth ∨ (p = .globalPartition ∧ dim = .k ∧ c ≠ .globalPartition)) ∧
    (∀ c p dim v, s.tryCount1d c p dim = some v → s.span c p dim = some v) ∧
    (∀ c b p dim v, p.depth ≤ b.depth → b.depth ≤ c.depth → s.tryCount1d c p dim = some v →
      ∃ x y, s.tryCount1d c b dim = some x ∧ s.tryCount1d b p dim = some y ∧ v = x * y) ∧
    (∀ c p ident, s.count2dIdent c p ident =
      (s.count1dIdentRow c p ident).bind fun r => (s.count1dIdentCol c p ident).map (r * ·)) := by
  refine ⟨fun c p dim => ?none, fun c p dim v h => ?span, fun c b p dim v hpb hbc h => ?split,
    fun c p ident => ?ident⟩
  case none =>
    rw [tryCount1d_eq_span]
    by_cases hcp : c.depth < p.depth
    · simp [hcp]
    · rw [if_neg hcp, span_eq_none_iff, stage_mem_between c p (Nat.le_of_not_lt hcp)]
      simp only [hcp, false_or]
      exact ⟨fun ⟨⟨hp, hc⟩, hk⟩ => ⟨hp, hk, hc⟩, fun ⟨hp, hk, hc⟩ => ⟨⟨hp, hc⟩, hk⟩⟩
  case span =>
    rw [tryCount1d_eq_span] at h
    split at h
    · cases h
    · exact h
  case split =>
    have hcp : ¬c.depth < p.depth := by omega
    rw [tryCount1d_eq_span, if_neg hcp] at h
    rw [tryCount1d_eq_span, tryCount1d_eq_span, if_neg (by omega), if_neg (by omega)]
    exact span_split s hpb hbc h
  case ident =>
    cases ident <;>
      simp [count2dIdent, count2d, tryCount2d, count1dIdentRow, count1dIdentCol, count1d,
        Option.map_eq_bind, Function.comp_def]

end TilingScheme

end CubeCl.Matmul
