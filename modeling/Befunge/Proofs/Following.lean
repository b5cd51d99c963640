import Befunge.Proofs.FieldWindow
import Mathlib.Data.Nat.Dist

/-! How the field pane follows the pointer. Whatever offsets it was left with, it scrolls to the
nearest ones that show the pointer, and no sum or difference on the way leaves the range of a
word. -/
namespace Befunge.Viewer

structure Arithmetic (m : Type → Type) where
  add : UInt64 → UInt64 → m UInt64
  subtract : UInt64 → UInt64 → m UInt64

namespace Arithmetic

def wrapping : Arithmetic Id := ⟨(· + ·), (· - ·)⟩

/-- A sum or a difference has no value if it is no word. -/
def checked : Arithmetic Option where
  add first second :=
    if first.toNat + second.toNat < UInt64.size then some (first + second) else none
  subtract first second := if second.toNat ≤ first.toNat then some (first - second) else none

theorem add_checked {first second : UInt64} (fits : first.toNat + second.toNat < 2 ^ 64) :
    checked.add first second = some (first + second) := if_pos fits

theorem subtract_checked {first second : UInt64} (fits : second.toNat ≤ first.toNat) :
    checked.subtract first second = some (first - second) := if_pos fits

end Arithmetic

open Arithmetic

section Evaluation

variable {m : Type → Type} [Monad m]

def followBy (arithmetic : Arithmetic m) (offset position visible : UInt64) : m UInt64 :=
  if position < offset then pure position
  else do
    let behind ← arithmetic.add offset visible
    if behind ≤ position then
      let next ← arithmetic.add position 1
      arithmetic.subtract next visible
    else pure offset

def FieldScroll.followBy (arithmetic : Arithmetic m) (scroll : FieldScroll)
    (x y columns rows : UInt64) : m FieldScroll := do
  let row ← Viewer.followBy arithmetic scroll.row y rows
  let column ← Viewer.followBy arithmetic scroll.column x columns
  pure ⟨row, column⟩

end Evaluation

/-- The offset shows the position, and no other one that does is as near to the old one. -/
structure Nearest (old position visible offset : ℕ) : Prop where
  start : offset ≤ position
  stop : position < offset + visible
  nearest : ∀ other, other ≤ position → position < other + visible → other ≠ offset →
    Nat.dist offset old < Nat.dist other old

theorem Nearest.eq_of_shown {old position visible offset : ℕ}
    (nearest : Nearest old position visible offset) (start : old ≤ position)
    (stop : position < old + visible) : offset = old := by
  by_contra moved
  have nearer := nearest.nearest old start stop (Ne.symm moved)
  rw [Nat.dist_self] at nearer
  exact Nat.not_lt_zero _ nearer

section Axis

variable (offset position visible : UInt64) (some : 0 < visible.toNat)
  (small : position.toNat + visible.toNat < 2 ^ 64)

include some small

theorem follow_nearest : Nearest offset.toNat position.toNat visible.toNat
    (follow offset position visible).toNat := by
  obtain ⟨start, stop⟩ := follow_visible offset position visible some small
  refine ⟨start, stop, fun other left right elsewhere => ?_⟩
  rw [toNat_follow offset position visible some small] at elsewhere ⊢
  simp only [Nat.dist]
  split_ifs at elsewhere ⊢ <;> omega

theorem follow_of_shown (start : offset.toNat ≤ position.toNat)
    (stop : position.toNat < offset.toNat + visible.toNat) :
    follow offset position visible = offset :=
  UInt64.toNat_inj.mp <|
    (follow_nearest offset position visible some small).eq_of_shown start stop

theorem follow_follow : follow (follow offset position visible) position visible =
    follow offset position visible := by
  obtain ⟨start, stop⟩ := follow_visible offset position visible some small
  exact follow_of_shown _ position visible some small start stop

theorem followBy_checked :
    followBy checked offset position visible = Option.some (follow offset position visible) := by
  rw [followBy, follow]
  by_cases before : position < offset
  · rw [if_pos before, if_pos before]
    rfl
  -- The offset is no larger than the position here, so the sum fits.
  have ordered : offset.toNat ≤ position.toNat :=
    UInt64.le_iff_toNat_le.mp (UInt64.not_lt.mp before)
  rw [if_neg before, if_neg before, add_checked (by omega), Option.bind_eq_bind, Option.bind_some]
  by_cases after : offset + visible ≤ position
  · have one : (1 : UInt64).toNat = 1 := rfl
    have room : visible.toNat ≤ (position + 1).toNat := by
      rw [UInt64.le_iff_toNat_le, UInt64.toNat_add] at after
      rw [UInt64.toNat_add]
      omega
    rw [if_pos after, if_pos after, add_checked (by omega), Option.bind_some, subtract_checked room]
  · rw [if_neg after, if_neg after]
    rfl

end Axis

/-- Following the pointer needs no number beyond the range of a word, shows the pointer, and scrolls
no further than that takes. -/
theorem follow_minimal_and_exact (scroll : FieldScroll) {x y columns rows : UInt64} {bound : ℕ}
    (left : x.toNat < bound) (above : y.toNat < bound)
    (wide : 1 ≤ columns.toNat) (tall : 1 ≤ rows.toNat)
    (narrow : bound + columns.toNat < UInt64.size) (low : bound + rows.toNat < UInt64.size) :
    let followed := scroll.follow x y columns rows
    scroll.followBy wrapping x y columns rows = followed ∧
    scroll.followBy checked x y columns rows = some followed ∧
    (followed.row.toNat ≤ y.toNat ∧ y.toNat < followed.row.toNat + rows.toNat) ∧
    (followed.column.toNat ≤ x.toNat ∧ x.toNat < followed.column.toNat + columns.toNat) ∧
    Nearest scroll.row.toNat y.toNat rows.toNat followed.row.toNat ∧
    Nearest scroll.column.toNat x.toNat columns.toNat followed.column.toNat ∧
    (scroll.row.toNat ≤ y.toNat → y.toNat < scroll.row.toNat + rows.toNat →
      followed.row = scroll.row) ∧
    (scroll.column.toNat ≤ x.toNat → x.toNat < scroll.column.toNat + columns.toNat →
      followed.column = scroll.column) ∧
    followed.follow x y columns rows = followed := by
  intro followed
  have size : UInt64.size = 2 ^ 64 := rfl
  have down : y.toNat + rows.toNat < 2 ^ 64 := by omega
  have across : x.toNat + columns.toNat < 2 ^ 64 := by omega
  refine ⟨rfl, ?_, follow_visible _ _ _ tall down, follow_visible _ _ _ wide across,
    follow_nearest _ _ _ tall down, follow_nearest _ _ _ wide across,
    follow_of_shown _ _ _ tall down, follow_of_shown _ _ _ wide across, ?_⟩
  · rw [FieldScroll.followBy, followBy_checked _ _ _ tall down,
      followBy_checked _ _ _ wide across]
    rfl
  · exact congrArg₂ FieldScroll.mk (follow_follow _ _ _ tall down) (follow_follow _ _ _ wide across)

/-- From the last offset there is, and from one that is left of the pointer. -/
theorem follow_minimal_and_exact_of_stale :
    let scroll : FieldScroll := ⟨18446744073709551615, 2⟩
    scroll.followBy checked 12 7 10 5 = some ⟨7, 3⟩ ∧ scroll.follow 12 7 10 5 = ⟨7, 3⟩ ∧
      ∀ other, other ≤ 12 → 12 < other + 10 → other ≠ 3 → Nat.dist 3 2 < Nat.dist other 2 := by
  intro scroll
  have followed : scroll.follow 12 7 10 5 = ⟨7, 3⟩ := by decide
  obtain ⟨_, evaluated, _, _, _, nearest, _⟩ := follow_minimal_and_exact scroll (x := 12) (y := 7)
    (by decide : (12 : UInt64).toNat < 13) (by decide) (by decide : 1 ≤ (10 : UInt64).toNat)
    (by decide : 1 ≤ (5 : UInt64).toNat) (by decide) (by decide)
  rw [followed] at evaluated nearest
  exact ⟨evaluated, followed, nearest.nearest⟩

end Befunge.Viewer
