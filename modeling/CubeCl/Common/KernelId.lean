import Mathlib.Logic.Basic
import Mathlib.Tactic.SplitIfs

/-!
# `KernelId` (`cubecl-common/src/id.rs`)

A kernel id is the `TypeId` and `type_name` of the kernel's type, an optional
type-erased `Info` payload, and an optional `ExecutionMode`. The payload is an
`Arc<dyn DynKey>`: equality goes through `dyn_eq`, which downcasts the other
payload to its own type and compares there, and hashing writes the payload's
`TypeId` and the 64-bit digest `DefaultHashBuilder::new().hash_one(self)`.

The payload types a program uses are `PayloadTypes`: one type per `TypeId`, with
the `PartialEq`, digest and `Debug` it brings. Its fields state the contracts
of the trait bounds `KernelId::info` asks for: `Eq` is an equivalence and
`Hash` agrees with it; the digest is a function of the value. A `Hasher` is
modelled by the sequence of writes it receives.

`Display for KernelId` pretty-prints the payload's `Debug` text with `format_str`, which
indents at each of `(`, `[`, `{` and dedents at its closing marker, keeping the nesting in a
`usize` `depth`. A closing marker at depth zero makes `depth -= 1` panic in a debug build; a
release build wraps it to `usize::MAX`, and then `" ".repeat(indentation * depth)` overflows its
capacity: `none` here. The depth counts markers of a string in memory, so it never overflows
upward. Whether `format_str` panics depends on the depth alone (`formatStr_eq_none_iff`), and
with the markers of `Display` it panics exactly on a text with a prefix that closes more markers
than it opens (`KernelId.display_eq_none_iff`).
-/

namespace CubeCl.Common

set_option autoImplicit false

/-- `core::any::TypeId`. -/
abbrev TypeId := Nat

/-- Modelled from the spec: `ExecutionMode` is not in the source; the spec calls it a
discriminant such as checked against unchecked bounds. Its `Debug`, `Hash` and `Eq` are
derived. -/
inductive ExecutionMode
  | checked
  | unchecked
deriving DecidableEq, Repr

/-- The derived `Debug` of `ExecutionMode`: the variant's name. -/
def ExecutionMode.fmt : ExecutionMode → String
  | .checked => "Checked"
  | .unchecked => "Unchecked"

/-- The derived discriminant of `ExecutionMode`. -/
def ExecutionMode.discriminant : ExecutionMode → Nat
  | .checked => 0
  | .unchecked => 1

/-- The payload types of a program, one per `TypeId`, with their `PartialEq`, the digest
`DefaultHashBuilder::new().hash_one`, and `Debug`; `Eq` is an equivalence, and `Hash` agrees
with it. -/
structure PayloadTypes where
  Carrier : TypeId → Type
  eq : (t : TypeId) → Carrier t → Carrier t → Bool
  hashOne : (t : TypeId) → Carrier t → UInt64
  fmt : (t : TypeId) → Carrier t → String
  eq_refl : ∀ t x, eq t x x = true
  eq_symm : ∀ t x y, eq t x y = true → eq t y x = true
  eq_trans : ∀ t x y z, eq t x y = true → eq t y z = true → eq t x z = true
  hashOne_eq : ∀ t x y, eq t x y = true → hashOne t x = hashOne t y

/-- One write to a `Hasher`. -/
inductive HashWrite
  | typeId (t : TypeId)
  | discriminant (d : Nat)
  | u64 (v : UInt64)
deriving DecidableEq, Repr

/-- The writes the derived `Hash` of `Option` makes: the discriminant, then the value. -/
def hashOption {α : Type} (hash : α → List HashWrite) : Option α → List HashWrite
  | none => [.discriminant 0]
  | some x => .discriminant 1 :: hash x

/-- The derived `PartialEq` of `Option`. -/
def eqOption {α : Type} (eq : α → α → Bool) : Option α → Option α → Bool
  | none, none => true
  | some x, some y => eq x y
  | _, _ => false

/-- The derived `Debug` of `Option`, as `{:?}` renders it. -/
def fmtOption {α : Type} (fmt : α → String) : Option α → String
  | none => "None"
  | some x => "Some(" ++ fmt x ++ ")"

variable (U : PayloadTypes)

/-- `Info`: a payload and the `TypeId` of its type. -/
structure Info where
  typeId : TypeId
  value : U.Carrier typeId

variable {U}

/-- `downcast_ref::<T>` on `as_any()`: the payload as a value of the type `t`, if it is one. -/
def Info.downcast (info : Info U) (t : TypeId) : Option (U.Carrier t) :=
  if h : info.typeId = t then some (h ▸ info.value) else none

/-- `DynKey::dyn_eq`, which `PartialEq for Info` calls. -/
def Info.eq (info other : Info U) : Bool :=
  match other.downcast info.typeId with
  | some v => U.eq info.typeId info.value v
  | none => false

/-- `Hash for Info`: `dyn_type_id()`, then the digest `dyn_hash` writes. -/
def Info.hash (info : Info U) : List HashWrite :=
  [.typeId info.typeId, .u64 (U.hashOne info.typeId info.value)]

/-- `Debug for Info`: the payload's own `Debug`. -/
def Info.fmt (info : Info U) : String := U.fmt info.typeId info.value

variable (U)

/-- `KernelId`. -/
structure KernelId where
  typeId : TypeId
  info : Option (Info U)
  mode : Option ExecutionMode
  typeName : String

variable {U}

/-- `KernelId::new::<T>()`, for the `TypeId` and `type_name` of `T`. -/
def KernelId.new (typeId : TypeId) (typeName : String) : KernelId U :=
  ⟨typeId, none, none, typeName⟩

/-- `KernelId::info`. -/
def KernelId.setInfo (id : KernelId U) (info : Info U) : KernelId U := { id with info := some info }

/-- `KernelId::mode`. -/
def KernelId.setMode (id : KernelId U) (mode : ExecutionMode) : KernelId U :=
  { id with mode := some mode }

/-- `PartialEq for KernelId`. -/
def KernelId.eq (a b : KernelId U) : Bool :=
  a.typeId == b.typeId && a.mode == b.mode && eqOption Info.eq a.info b.info

/-- `Hash for KernelId`: the writes it makes to the hasher. -/
def KernelId.hash (id : KernelId U) : List HashWrite :=
  .typeId id.typeId :: hashOption Info.hash id.info ++
    hashOption (fun m => [.discriminant m.discriminant]) id.mode

/-- `KernelId::stable_format`: `format!("{}-{:?}-{:?}", type_name, info, mode)`. -/
def KernelId.stableFormat (id : KernelId U) : String :=
  id.typeName ++ "-" ++ fmtOption Info.fmt id.info ++ "-" ++ fmtOption ExecutionMode.fmt id.mode

/-! ## Equality is an equivalence and agrees with hashing -/

section Laws

variable {α : Type} {eq : α → α → Bool}

theorem eqOption_refl (h : ∀ x, eq x x = true) : ∀ o, eqOption eq o o = true
  | none => rfl
  | some x => h x

theorem eqOption_symm (h : ∀ x y, eq x y = true → eq y x = true) :
    ∀ o o', eqOption eq o o' = true → eqOption eq o' o = true
  | none, none, _ => rfl
  | some x, some y, hxy => h x y hxy

theorem eqOption_trans (h : ∀ x y z, eq x y = true → eq y z = true → eq x z = true) :
    ∀ o o' o'', eqOption eq o o' = true → eqOption eq o' o'' = true → eqOption eq o o'' = true
  | none, none, none, _, _ => rfl
  | some x, some y, some z, hxy, hyz => h x y z hxy hyz

theorem hashOption_congr {hash : α → List HashWrite} (h : ∀ x y, eq x y = true → hash x = hash y) :
    ∀ o o', eqOption eq o o' = true → hashOption hash o = hashOption hash o'
  | none, none, _ => rfl
  | some x, some y, hxy => congrArg (HashWrite.discriminant 1 :: ·) (h x y hxy)

end Laws

namespace Info

variable {U : PayloadTypes}

@[simp] theorem eq_mk (t : TypeId) (x y : U.Carrier t) :
    Info.eq ⟨t, x⟩ ⟨t, y⟩ = U.eq t x y := by
  simp [Info.eq, downcast]

/-- `dyn_eq` holds only between payloads of one type. -/
theorem typeId_eq_of_eq {a b : Info U} (h : a.eq b = true) : b.typeId = a.typeId := by
  refine Decidable.byContradiction fun hne => ?_
  simp [Info.eq, downcast, hne] at h

theorem eq_refl (a : Info U) : a.eq a = true := by
  obtain ⟨t, x⟩ := a
  simpa using U.eq_refl t x

theorem eq_symm {a b : Info U} (h : a.eq b = true) : b.eq a = true := by
  obtain ⟨t, x⟩ := a
  obtain ⟨t', y⟩ := b
  obtain rfl : t' = t := typeId_eq_of_eq h
  simp only [eq_mk] at h ⊢
  exact U.eq_symm _ _ _ h

theorem eq_trans {a b c : Info U} (hab : a.eq b = true) (hbc : b.eq c = true) : a.eq c = true := by
  obtain ⟨t, x⟩ := a
  obtain ⟨t', y⟩ := b
  obtain ⟨t'', z⟩ := c
  obtain rfl : t' = t := typeId_eq_of_eq hab
  obtain rfl : t'' = t' := typeId_eq_of_eq hbc
  simp only [eq_mk] at hab hbc ⊢
  exact U.eq_trans _ _ _ _ hab hbc

theorem hash_eq_of_eq {a b : Info U} (h : a.eq b = true) : a.hash = b.hash := by
  obtain ⟨t, x⟩ := a
  obtain ⟨t', y⟩ := b
  obtain rfl : t' = t := typeId_eq_of_eq h
  simp only [eq_mk] at h
  simp [Info.hash, U.hashOne_eq _ _ _ h]

end Info

namespace KernelId

variable {U : PayloadTypes}

theorem eq_iff {a b : KernelId U} :
    a.eq b = true ↔ a.typeId = b.typeId ∧ a.mode = b.mode ∧ eqOption Info.eq a.info b.info = true := by
  simp [KernelId.eq, and_assoc]

/-- **`KernelId` equality is an equivalence, and equal ids hash alike.** For all ids, with
payloads of any types: `==` is reflexive, symmetric and transitive, and two equal ids make the
same writes to a hasher, so any hasher ends in the same state. -/
theorem kernel_id_eq_equivalence_hash_consistent :
    (∀ a : KernelId U, a.eq a = true) ∧
    (∀ a b : KernelId U, a.eq b = true → b.eq a = true) ∧
    (∀ a b c : KernelId U, a.eq b = true → b.eq c = true → a.eq c = true) ∧
    (∀ a b : KernelId U, a.eq b = true → a.hash = b.hash) := by
  refine ⟨fun a => ?_, fun a b h => ?_, fun a b c hab hbc => ?_, fun a b h => ?_⟩
  · exact eq_iff.2 ⟨rfl, rfl, eqOption_refl Info.eq_refl a.info⟩
  · obtain ⟨ht, hm, hi⟩ := eq_iff.1 h
    exact eq_iff.2 ⟨ht.symm, hm.symm, @eqOption_symm _ Info.eq (fun _ _ => Info.eq_symm) _ _ hi⟩
  · obtain ⟨ht, hm, hi⟩ := eq_iff.1 hab
    obtain ⟨ht', hm', hi'⟩ := eq_iff.1 hbc
    exact eq_iff.2 ⟨ht.trans ht', hm.trans hm',
      @eqOption_trans _ Info.eq (fun _ _ _ => Info.eq_trans) _ _ _ hi hi'⟩
  · obtain ⟨ht, hm, hi⟩ := eq_iff.1 h
    simp only [KernelId.hash, ht, hm,
      @hashOption_congr _ Info.eq Info.hash (fun _ _ => Info.hash_eq_of_eq) _ _ hi]

end KernelId

/-! ## `stable_format` against equality -/

section Separators

/-- The text before the first `-` is the same in two renderings that have no `-` before it. -/
theorem split_first_dash :
    ∀ {n₁ n₂ r₁ r₂ : List Char}, '-' ∉ n₁ → '-' ∉ n₂ → n₁ ++ '-' :: r₁ = n₂ ++ '-' :: r₂ →
      n₁ = n₂ ∧ r₁ = r₂
  | [], [], _, _, _, _, h => ⟨rfl, (List.cons.inj h).2⟩
  | [], c :: _, _, _, _, h₂, h => absurd (List.mem_cons_self _ _) ((List.cons.inj h).1 ▸ h₂)
  | c :: _, [], _, _, h₁, _, h => absurd (List.mem_cons_self _ _) ((List.cons.inj h).1 ▸ h₁)
  | c :: n₁, d :: n₂, r₁, r₂, h₁, h₂, h => by
    simp only [List.cons_append, List.cons.injEq] at h
    obtain ⟨hn, hr⟩ := split_first_dash (List.not_mem_of_not_mem_cons h₁)
      (List.not_mem_of_not_mem_cons h₂) h.2
    exact ⟨by rw [h.1, hn], hr⟩

/-- The text after the last `-` is the same in two renderings that have no `-` after it. -/
theorem split_last_dash {r₁ r₂ m₁ m₂ : List Char} (h₁ : '-' ∉ m₁) (h₂ : '-' ∉ m₂)
    (h : r₁ ++ '-' :: m₁ = r₂ ++ '-' :: m₂) : r₁ = r₂ ∧ m₁ = m₂ := by
  have hrev := congrArg List.reverse h
  simp only [List.reverse_append, List.reverse_cons, List.append_assoc, List.singleton_append] at hrev
  obtain ⟨hm, hr⟩ := split_first_dash (by simpa using h₁) (by simpa using h₂) hrev
  exact ⟨List.reverse_inj.1 hr, List.reverse_inj.1 hm⟩

theorem fmtOption_mode_no_dash (m : Option ExecutionMode) :
    '-' ∉ (fmtOption ExecutionMode.fmt m).data := by
  rcases m with _ | _ | _ <;> decide

theorem fmtOption_mode_injective {m₁ m₂ : Option ExecutionMode}
    (h : fmtOption ExecutionMode.fmt m₁ = fmtOption ExecutionMode.fmt m₂) : m₁ = m₂ := by
  rcases m₁ with _ | _ | _ <;> rcases m₂ with _ | _ | _ <;> first | rfl | exact absurd h (by decide)

/-- Equal `Debug` renderings of two options are both `None`, or render equal values. -/
theorem fmtOption_eq {α : Type} {fmt : α → String} :
    ∀ {o₁ o₂ : Option α}, fmtOption fmt o₁ = fmtOption fmt o₂ →
      (o₁ = none ∧ o₂ = none) ∨ ∃ x y, o₁ = some x ∧ o₂ = some y ∧ fmt x = fmt y
  | none, none, _ => .inl ⟨rfl, rfl⟩
  | none, some y, h => absurd (congrArg (fun s => s.data.head?) h) (by simp [fmtOption])
  | some x, none, h => absurd (congrArg (fun s => s.data.head?) h) (by simp [fmtOption])
  | some x, some y, h => by
    refine .inr ⟨x, y, rfl, rfl, String.ext ?_⟩
    have := congrArg String.data h
    simp only [fmtOption, String.data_append] at this
    exact List.append_cancel_left (List.append_cancel_right this)

end Separators

namespace KernelId

variable {U : PayloadTypes}

/-- The parts of a stable format: the type name, the payload's rendering, the mode's. -/
theorem stableFormat_data (id : KernelId U) :
    id.stableFormat.data = id.typeName.data ++ '-' :: ((fmtOption Info.fmt id.info).data ++
      '-' :: (fmtOption ExecutionMode.fmt id.mode).data) := by
  simp [stableFormat, String.data_append, List.append_assoc]

/-- **Payloads of two types with one `Debug` text conflate.** Two ids that differ only in their
payloads, of different types with the same `Debug` text, have one stable format, and are not
equal: `dyn_eq` fails to downcast one payload to the other's type. -/
theorem stable_format_conflates_payload_types (id : KernelId U) (x y : Info U)
    (htype : x.typeId ≠ y.typeId) (hfmt : x.fmt = y.fmt) :
    (id.setInfo x).stableFormat = (id.setInfo y).stableFormat ∧
      (id.setInfo x).eq (id.setInfo y) = false := by
  refine ⟨by simp only [stableFormat, setInfo, fmtOption, hfmt], Bool.eq_false_iff.2 fun h => ?_⟩
  obtain ⟨-, -, hinfo⟩ := eq_iff.1 h
  exact htype (Info.typeId_eq_of_eq (a := x) (b := y) hinfo).symm

/-- **Stable formats identify ids under the conditions that make the rendering readable
back.** If the two type names have no `-` and name one type each, and the two payloads, where
both ids have one, are equal under `dyn_eq` when their `Debug` renderings are, then equal stable
formats mean equal ids. Each condition is needed: `stable_format_needs_dashless_names`,
`stable_format_needs_unique_type_names`, and `stable_format_conflates_payload_types` for the
payloads. -/
theorem stable_format_injective_of_readable {a b : KernelId U}
    (hnames : '-' ∉ a.typeName.data ∧ '-' ∉ b.typeName.data)
    (htype : a.typeName = b.typeName → a.typeId = b.typeId)
    (hdebug : ∀ x y, a.info = some x → b.info = some y → x.fmt = y.fmt → x.eq y = true)
    (h : a.stableFormat = b.stableFormat) : a.eq b = true := by
  have hdata := congrArg String.data h
  rw [stableFormat_data, stableFormat_data] at hdata
  obtain ⟨hname, hrest⟩ := split_first_dash hnames.1 hnames.2 hdata
  obtain ⟨hinfo, hmode⟩ := split_last_dash (fmtOption_mode_no_dash _) (fmtOption_mode_no_dash _) hrest
  refine eq_iff.2 ⟨htype (String.ext hname), fmtOption_mode_injective (String.ext hmode), ?_⟩
  rcases fmtOption_eq (String.ext hinfo) with ⟨ha, hb⟩ | ⟨x, y, ha, hb, hxy⟩
  · rw [ha, hb]; rfl
  · rw [ha, hb]; exact hdebug x y ha hb hxy

end KernelId

/-- Payload types whose `Eq`, `Hash` and `Debug` read a number's parity only: `Debug` writes
`Even` or `Odd`. -/
def parityPayloads : PayloadTypes where
  Carrier _ := Nat
  eq _ x y := x % 2 == y % 2
  hashOne _ x := (x % 2).toUInt64
  fmt _ x := if x % 2 = 0 then "Even" else "Odd"
  eq_refl _ x := beq_self_eq_true _
  eq_symm _ x y h := by rw [beq_iff_eq] at h ⊢; exact h.symm
  eq_trans _ x y z h h' := by rw [beq_iff_eq] at h h' ⊢; exact h.trans h'
  hashOne_eq _ x y h := congrArg Nat.toUInt64 (beq_iff_eq.1 h)

/-- Two different ids of one kernel, with the payloads `2` and `4` of a type compared and
rendered by parity: one stable format, and equal ids. -/
theorem stable_format_injective_parity_payloads :
    ((KernelId.new 3 "matmul").setInfo ⟨0, (2 : Nat)⟩ : KernelId parityPayloads) ≠
      (KernelId.new 3 "matmul").setInfo ⟨0, (4 : Nat)⟩ ∧
    ('-' ∉ "matmul".data ∧ '-' ∉ "matmul".data) ∧ ("matmul" = "matmul" → (3 : TypeId) = 3) ∧
    (∀ x y, ((KernelId.new 3 "matmul").setInfo ⟨0, (2 : Nat)⟩ : KernelId parityPayloads).info = some x →
      ((KernelId.new 3 "matmul").setInfo ⟨0, (4 : Nat)⟩ : KernelId parityPayloads).info = some y →
      x.fmt = y.fmt → x.eq y = true) ∧
    ((KernelId.new 3 "matmul").setInfo ⟨0, (2 : Nat)⟩ : KernelId parityPayloads).stableFormat =
      ((KernelId.new 3 "matmul").setInfo ⟨0, (4 : Nat)⟩ : KernelId parityPayloads).stableFormat ∧
    ((KernelId.new 3 "matmul").setInfo ⟨0, (2 : Nat)⟩ : KernelId parityPayloads).eq
      ((KernelId.new 3 "matmul").setInfo ⟨0, (4 : Nat)⟩) = true := by
  refine ⟨fun h => ?_, ?names, ?type, ?debug, ?same,
    KernelId.stable_format_injective_of_readable ?names ?type ?debug ?same⟩
  · have := congrArg (fun k : KernelId parityPayloads => k.info.map fun i => (i.value : Nat)) h
    exact absurd this (by decide)
  · decide
  · exact fun _ => rfl
  · rintro x y ⟨⟩ ⟨⟩ -
    rfl
  · rfl

/-- Payload types whose `Debug` writes their text as it is, as a hand-written `impl Debug` with
`write_str` does. -/
def rawTextPayloads : PayloadTypes where
  Carrier _ := String
  eq _ x y := x == y
  hashOne _ x := x.hash
  fmt _ x := x
  eq_refl _ x := beq_self_eq_true x
  eq_symm _ x y h := by rw [beq_iff_eq] at h ⊢; exact h.symm
  eq_trans _ x y z h h' := by rw [beq_iff_eq] at h h' ⊢; exact h.trans h'
  hashOne_eq _ x y h := by rw [beq_iff_eq.1 h]

/-- A `-` in a type name moves the split: the kernel `K` with the payload `x-Some(y` and the
kernel `K-Some(x` with the payload `y` have one stable format, and are not equal, though their
names differ and their payloads render differently. -/
theorem stable_format_needs_dashless_names :
    ("K" = "K-Some(x" → (0 : TypeId) = 1) ∧
    (∀ x y, ((KernelId.new 0 "K").setInfo ⟨0, "x-Some(y"⟩ : KernelId rawTextPayloads).info = some x →
      ((KernelId.new 1 "K-Some(x").setInfo ⟨0, "y"⟩ : KernelId rawTextPayloads).info = some y →
      x.fmt = y.fmt → x.eq y = true) ∧
    ((KernelId.new 0 "K").setInfo ⟨0, "x-Some(y"⟩ : KernelId rawTextPayloads).stableFormat =
      ((KernelId.new 1 "K-Some(x").setInfo ⟨0, "y"⟩ : KernelId rawTextPayloads).stableFormat ∧
    ((KernelId.new 0 "K").setInfo ⟨0, "x-Some(y"⟩ : KernelId rawTextPayloads).eq
      ((KernelId.new 1 "K-Some(x").setInfo ⟨0, "y"⟩) = false := by
  refine ⟨fun h => absurd h (by decide), ?_, rfl, rfl⟩
  rintro x y ⟨⟩ ⟨⟩ h
  exact absurd h (by decide)

/-- One type name for two types: the kernels `K` of `TypeId` `0` and `1` have one stable format,
and are not equal, though the name has no `-` and neither has a payload. -/
theorem stable_format_needs_unique_type_names :
    '-' ∉ "K".data ∧
    (KernelId.new 0 "K" : KernelId rawTextPayloads).stableFormat =
      (KernelId.new 1 "K" : KernelId rawTextPayloads).stableFormat ∧
    (KernelId.new 0 "K" : KernelId rawTextPayloads).eq (KernelId.new 1 "K") = false :=
  ⟨by decide, rfl, rfl⟩

/-- The ASCII strings. -/
abbrev AsciiString := {s : String // ∀ c ∈ s.data, c.toNat < 128}

/-- `char::escape_debug` on an ASCII character, as `Debug for str` applies it: `\0`, `\t`,
`\r`, `\n`, `\\` and the escaped double quote, the printable characters as they are, and the
other control characters as `\u` and their lowercase hexadecimal code in braces. -/
def escapeDebugAscii (c : Char) : List Char :=
  if c = '\x00' then ['\\', '0']
  else if c = '\t' then ['\\', 't']
  else if c = '\r' then ['\\', 'r']
  else if c = '\n' then ['\\', 'n']
  else if c = '\\' then ['\\', '\\']
  else if c = '\x22' then ['\\', '\x22']
  else if 32 ≤ c.toNat ∧ c.toNat < 127 then [c]
  else ['\\', 'u', '\x7b'] ++ Nat.toDigits 16 c.toNat ++ ['\x7d']

/-- `&str` and `String` payloads of ASCII text, which both render as `Debug for str` does: the
text escaped by `escape_debug`, in double quotes. `TypeId` `0` is `&str`, any other `String`.
Outside ASCII, `escape_debug` reads the Unicode tables, which are not modelled. -/
def stringPayloads : PayloadTypes where
  Carrier _ := AsciiString
  eq _ x y := x == y
  hashOne _ x := x.1.hash
  fmt _ x := "\"" ++ String.mk (x.1.data.flatMap escapeDebugAscii) ++ "\""
  eq_refl _ x := beq_self_eq_true x
  eq_symm _ x y h := by rw [beq_iff_eq] at h ⊢; exact h.symm
  eq_trans _ x y z h h' := by rw [beq_iff_eq] at h h' ⊢; exact h.trans h'
  hashOne_eq _ x y h := by rw [beq_iff_eq.1 h]

example : Info.fmt (⟨1, ⟨"a\"b\n", by decide⟩⟩ : Info stringPayloads) = "\"a\\\"b\\n\"" := by decide

/-- One kernel with the payload `"1"` as a `&str` and as a `String`: the two ids have one
stable format, and are not equal. -/
theorem stable_format_conflates_str_and_string :
    (⟨0, ⟨"1", by decide⟩⟩ : Info stringPayloads).typeId ≠ (⟨1, ⟨"1", by decide⟩⟩ : Info stringPayloads).typeId ∧
    (⟨0, ⟨"1", by decide⟩⟩ : Info stringPayloads).fmt = (⟨1, ⟨"1", by decide⟩⟩ : Info stringPayloads).fmt ∧
    ((KernelId.new 5 "matmul").setInfo ⟨0, ⟨"1", by decide⟩⟩ : KernelId stringPayloads).stableFormat =
      ((KernelId.new 5 "matmul").setInfo ⟨1, ⟨"1", by decide⟩⟩ : KernelId stringPayloads).stableFormat ∧
    ((KernelId.new 5 "matmul").setInfo ⟨0, ⟨"1", by decide⟩⟩ : KernelId stringPayloads).eq
      ((KernelId.new 5 "matmul").setInfo ⟨1, ⟨"1", by decide⟩⟩) = false :=
  ⟨by decide, rfl, KernelId.stable_format_conflates_payload_types _ _ _ (by decide) rfl⟩

/-! ## `format_str` and `Display for KernelId` -/

/-- The state of `format_str`'s loop: `result`, `depth` and `prev`. -/
structure FormatState where
  result : List Char
  depth : Nat
  prev : Char
deriving DecidableEq, Repr

/-- `indentation`. -/
def indentation : Nat := 4

/-- `" ".repeat(n)`. -/
def spaces (n : Nat) : List Char := List.replicate n ' '

/-- `result.pop()`, `n` times; popping an empty string leaves it empty. -/
def popN : Nat → List Char → List Char
  | 0, result => result
  | n + 1, result => popN n result.dropLast

/-- One marker `(start, end)` of the inner loop, on the character `c`, with `found_marker`. -/
def markerStep (includeSpace : Bool) (c : Char) :
    FormatState × Bool → Char × Char → Option (FormatState × Bool)
  | (st, found), (start, stop) =>
    if c = start then
      let depth := st.depth + 1
      let result := if st.prev ≠ ' ' ∧ includeSpace then st.result ++ [' '] else st.result
      some ({ st with result := result ++ [start, '\n'] ++ spaces (indentation * depth), depth }, true)
    else if c = stop then
      if st.depth = 0 then none
      else
        let depth := st.depth - 1
        if st.prev ≠ start then
          let result := if st.prev = ' ' then st.result.dropLast else st.result
          let result := result ++ [',', '\n'] ++ spaces (indentation * depth) ++ [stop]
          some ({ st with result, depth }, true)
        else
          let result := popN ((spaces (indentation * depth)).length + 1 + indentation) st.result
          some ({ st with result := result ++ [stop], depth }, true)
    else some (st, found)

/-- One character of `format_str`'s loop. -/
def formatChar (markers : List (Char × Char)) (includeSpace : Bool) (st : FormatState) (c : Char) :
    Option FormatState :=
  if c = ' ' then some st
  else do
    let (st, foundMarker) ← markers.foldlM (markerStep includeSpace c) (st, false)
    if foundMarker then some { st with prev := c }
    else if c = ',' ∧ 0 < st.depth then
      let result := if st.prev = ' ' then st.result.dropLast else st.result
      some { st with result := result ++ [',', '\n'] ++ spaces (indentation * st.depth) }
    else if c = ':' ∧ includeSpace then some { st with result := st.result ++ [c, ' '], prev := ' ' }
    else some { st with result := st.result ++ [c], prev := c }

/-- `format_str`. -/
def formatStr (kernelId : String) (markers : List (Char × Char)) (includeSpace : Bool) :
    Option String :=
  (kernelId.data.foldlM (formatChar markers includeSpace) ⟨[], 0, ' '⟩).map fun st => ⟨st.result⟩

/-- The markers `Display for KernelId` passes to `format_str`. -/
def kernelIdMarkers : List (Char × Char) := [('(', ')'), ('[', ']'), ('{', '}')]

/-- `Display for KernelId`. -/
def KernelId.display (id : KernelId U) : Option String :=
  match id.info with
  | some info => formatStr info.fmt kernelIdMarkers true
  | none => some "No info"

/-- What one marker does to `depth` on the character `c`. -/
def markerDepth (c : Char) (depth : Nat) : Char × Char → Option Nat
  | (start, stop) =>
    if c = start then some (depth + 1)
    else if c = stop then (if depth = 0 then none else some (depth - 1))
    else some depth

/-- What one character does to `depth`. -/
def charDepth (markers : List (Char × Char)) (depth : Nat) (c : Char) : Option Nat :=
  if c = ' ' then some depth else markers.foldlM (markerDepth c) depth

theorem markerStep_depth (includeSpace : Bool) (c : Char) (st : FormatState) (found : Bool)
    (marker : Char × Char) :
    (markerStep includeSpace c (st, found) marker).map (·.1.depth) = markerDepth c st.depth marker := by
  obtain ⟨start, stop⟩ := marker
  dsimp only [markerStep, markerDepth]
  by_cases hstart : c = start
  · rw [if_pos hstart, if_pos hstart]; rfl
  rw [if_neg hstart, if_neg hstart]
  by_cases hstop : c = stop
  · rw [if_pos hstop, if_pos hstop]
    by_cases hzero : st.depth = 0
    · rw [if_pos hzero, if_pos hzero]; rfl
    · rw [if_neg hzero, if_neg hzero]; split <;> rfl
  · rw [if_neg hstop, if_neg hstop]; rfl

/-- A fold in `Option` whose every step a projection carries onto a step of another fold: the
projection carries the whole fold, failure included. -/
theorem foldlM_map_of_step {α β γ : Type} {f : α → γ → Option α} {g : β → γ → Option β}
    (proj : α → β) (h : ∀ a c, (f a c).map proj = g (proj a) c) :
    ∀ (cs : List γ) (a : α), (cs.foldlM f a).map proj = cs.foldlM g (proj a)
  | [], _ => rfl
  | c :: cs, a => by
    rw [List.foldlM_cons, List.foldlM_cons, ← h a c]
    cases f a c with
    | none => rfl
    | some a' => exact foldlM_map_of_step proj h cs a'

theorem formatChar_depth (markers : List (Char × Char)) (includeSpace : Bool) (st : FormatState)
    (c : Char) :
    (formatChar markers includeSpace st c).map FormatState.depth = charDepth markers st.depth c := by
  unfold formatChar charDepth
  by_cases hc : c = ' '
  · rw [if_pos hc, if_pos hc]; rfl
  · rw [if_neg hc, if_neg hc]
    have h := foldlM_map_of_step (fun p : FormatState × Bool => p.1.depth)
      (fun p m => markerStep_depth includeSpace c p.1 p.2 m) markers (st, false)
    rw [← h]
    cases markers.foldlM (markerStep includeSpace c) (st, false) with
    | none => rfl
    | some p =>
      obtain ⟨st', found⟩ := p
      dsimp only [Option.bind_eq_bind, Option.some_bind, Option.map_some']
      split_ifs <;> rfl

/-- `format_str` panics exactly where its `depth` would go below zero: the text it builds
never makes it fail. -/
theorem formatStr_eq_none_iff (kernelId : String) (markers : List (Char × Char))
    (includeSpace : Bool) :
    formatStr kernelId markers includeSpace = none ↔
      kernelId.data.foldlM (charDepth markers) 0 = none := by
  rw [formatStr, Option.map_eq_none', ← Option.map_eq_none' (f := FormatState.depth),
    foldlM_map_of_step FormatState.depth (formatChar_depth markers includeSpace)]

/-- The characters that open one of `kernelIdMarkers`. -/
def isOpening (c : Char) : Bool := c = '(' ∨ c = '[' ∨ c = '{'

/-- The characters that close one of `kernelIdMarkers`. -/
def isClosing (c : Char) : Bool := c = ')' ∨ c = ']' ∨ c = '}'

theorem charDepth_kernelIdMarkers (depth : Nat) (c : Char) :
    charDepth kernelIdMarkers depth c =
      if isOpening c then some (depth + 1)
      else if isClosing c then (if depth = 0 then none else some (depth - 1))
      else some depth := by
  by_cases ho : isOpening c
  · simp only [isOpening, decide_eq_true_eq] at ho
    rcases ho with rfl | rfl | rfl <;> rfl
  by_cases hc : isClosing c
  · simp only [isClosing, decide_eq_true_eq] at hc
    rcases hc with rfl | rfl | rfl <;> cases depth <;> rfl
  obtain ⟨h₁, h₂, h₃⟩ : c ≠ '(' ∧ c ≠ '[' ∧ c ≠ '{' := by simpa [isOpening] using ho
  obtain ⟨h₄, h₅, h₆⟩ : c ≠ ')' ∧ c ≠ ']' ∧ c ≠ '}' := by simpa [isClosing] using hc
  simp only [charDepth, kernelIdMarkers, List.foldlM_cons, List.foldlM_nil, markerDepth, h₁, h₂, h₃,
    h₄, h₅, h₆, ho, hc, ↓reduceIte, Bool.false_eq_true, Option.bind_eq_bind, Option.some_bind,
    Option.pure_def, ite_self]

theorem exists_prefix_cons {P : List Char → Prop} {c : Char} {cs : List Char} :
    (∃ p, p <+: c :: cs ∧ P p) ↔ P [] ∨ ∃ t, t <+: cs ∧ P (c :: t) := by
  simp only [List.prefix_cons_iff]
  constructor
  · rintro ⟨p, rfl | ⟨t, rfl, ht⟩, hp⟩
    · exact .inl hp
    · exact .inr ⟨t, ht, hp⟩
  · rintro (hp | ⟨t, ht, hp⟩)
    · exact ⟨[], .inl rfl, hp⟩
    · exact ⟨c :: t, .inr ⟨t, rfl, ht⟩, hp⟩

/-- With the markers of `Display for KernelId`, the `depth` of `format_str` goes below zero
exactly where some prefix of the text closes more markers than it opens beyond `depth`. -/
theorem foldlM_charDepth_eq_none_iff :
    ∀ (cs : List Char) (depth : Nat), cs.foldlM (charDepth kernelIdMarkers) depth = none ↔
      ∃ p, p <+: cs ∧ depth + p.countP isOpening < p.countP isClosing
  | [], depth => by simp
  | c :: cs, depth => by
    rw [List.foldlM_cons, charDepth_kernelIdMarkers, exists_prefix_cons]
    simp only [List.countP_nil, List.countP_cons, Nat.add_zero, Nat.not_lt_zero, false_or,
      Option.bind_eq_bind]
    by_cases ho : isOpening c
    · have hc : isClosing c = false := by
        simp only [isOpening, isClosing, decide_eq_true_eq, decide_eq_false_iff_not] at ho ⊢
        rcases ho with rfl | rfl | rfl <;> decide
      simp only [ho, hc, ↓reduceIte, Bool.false_eq_true, Option.some_bind,
        foldlM_charDepth_eq_none_iff cs (depth + 1)]
      exact exists_congr fun t => and_congr_right fun _ => by omega
    by_cases hc : isClosing c
    · by_cases hd : depth = 0
      · simp only [ho, hc, hd, ↓reduceIte, Bool.false_eq_true, Option.none_bind, true_iff]
        exact ⟨[], List.nil_prefix, by simp⟩
      simp only [ho, hc, hd, ↓reduceIte, Bool.false_eq_true, Option.some_bind,
        foldlM_charDepth_eq_none_iff cs (depth - 1)]
      exact exists_congr fun t => and_congr_right fun _ => by omega
    · simp only [ho, hc, ↓reduceIte, Bool.false_eq_true, Option.some_bind,
        foldlM_charDepth_eq_none_iff cs depth, Nat.add_zero]

namespace KernelId

/-- `Display for KernelId` panics exactly on an info payload whose `Debug` text has a prefix
that closes more of `(`, `[`, `{` than it opens. -/
theorem display_eq_none_iff (id : KernelId U) :
    id.display = none ↔ ∃ info, id.info = some info ∧
      ∃ p, p <+: info.fmt.data ∧ p.countP isOpening < p.countP isClosing := by
  unfold display
  split
  · next info h =>
    simp only [formatStr_eq_none_iff, foldlM_charDepth_eq_none_iff, Nat.zero_add, h,
      Option.some.injEq, exists_eq_left']
  · next h => simp [h]

example : ((KernelId.new 5 "matmul").setInfo ⟨1, ⟨"a(b, c)", by decide⟩⟩ : KernelId stringPayloads).display =
    some "\"a (\n    b,\n    c,\n)\"" := by decide

end KernelId

/-- `Display for KernelId` panics on every payload whose `Debug` text closes a marker before
opening one: the `usize` depth of `format_str` goes below zero. -/
theorem kernel_id_display_panics (id : KernelId U) (info : Info U) (h : id.info = some info)
    (p : List Char) (hp : p <+: info.fmt.data) (hclose : p.countP isOpening < p.countP isClosing) :
    id.display = none :=
  (KernelId.display_eq_none_iff id).2 ⟨info, h, p, hp, hclose⟩

/-- The `String` payload `")"`, whose `Debug` text is `")"`. -/
theorem kernel_id_display_panics_on_paren :
    ((KernelId.new 5 "matmul").setInfo ⟨1, ⟨")", by decide⟩⟩ : KernelId stringPayloads).display = none :=
  kernel_id_display_panics _ ⟨1, ⟨")", by decide⟩⟩ rfl _ (List.take_prefix 2 _) (by decide)

end CubeCl.Common
