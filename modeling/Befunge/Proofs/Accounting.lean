import Befunge.Timeline
import Mathlib.Data.List.Basic

/-! The usage of a timeline is the sum of what its snapshots are charged, each one
after the snapshot before it. Recording adds to the sum and giving up the latest
snapshots takes away exactly what they had added. -/
namespace Befunge.Timeline

/-- Bytes charged for snapshots that are recorded one after another. -/
def total : Option Snapshot → List Snapshot → Nat
  | _, [] => 0
  | previous, snapshot :: rest => charge previous snapshot + total (some snapshot) rest

theorem total_append (previous : Option Snapshot) (earlier later : List Snapshot) :
    total previous (earlier ++ later) =
      total previous earlier + total (earlier.getLast?.or previous) later := by
  induction earlier generalizing previous with
  | nil => simp [total]
  | cons head rest ih =>
    have latest : (head :: rest).getLast?.or previous = rest.getLast?.or (some head) := by
      rw [List.getLast?_cons]
      cases rest.getLast? <;> rfl
    rw [List.cons_append, total, ih, total, latest, Nat.add_assoc]

theorem total_concat (previous : Option Snapshot) (snapshots : List Snapshot) (last : Snapshot) :
    total previous (snapshots ++ [last]) =
      total previous snapshots + charge (snapshots.getLast?.or previous) last :=
  total_append previous snapshots [last]

/-- The usage is what the snapshots were charged, and it keeps to the budget. -/
structure Balanced (timeline : Timeline) : Prop where
  charged : timeline.usage = total none timeline.snapshots.toList
  affordable : timeline.usage ≤ timeline.budget

variable {timeline : Timeline} {snapshot : Snapshot}

theorem empty_balanced (budget : Nat) : (empty budget).Balanced :=
  ⟨rfl, Nat.zero_le budget⟩

theorem length_eq (timeline : Timeline) : timeline.length = timeline.snapshots.toList.length := rfl

theorem cost_eq (timeline : Timeline) (snapshot : Snapshot) :
    timeline.cost snapshot = charge timeline.snapshots.toList.getLast? snapshot := by
  rw [cost, Array.getLast?_toList]

@[simp]
theorem append_snapshots :
    (timeline.append snapshot).snapshots.toList = timeline.snapshots.toList ++ [snapshot] := by
  simp [append]

theorem append_balanced (balanced : timeline.Balanced)
    (afforded : timeline.usage + timeline.cost snapshot ≤ timeline.budget) :
    (timeline.append snapshot).Balanced := by
  refine ⟨?_, afforded⟩
  rw [append_snapshots, total_concat, Option.or_none, ← cost_eq, ← balanced.charged]
  rfl

theorem record_ok {next : Timeline} (recorded : timeline.record snapshot = .ok next) :
    timeline.usage + timeline.cost snapshot ≤ timeline.budget ∧ next = timeline.append snapshot := by
  unfold record affords at recorded
  split at recorded
  · rename_i afforded
    exact ⟨of_decide_eq_true afforded, (Except.ok.inj recorded).symm⟩
  · cases recorded

theorem record_error {error : HistoryError} (refused : timeline.record snapshot = .error error) :
    timeline.budget < timeline.usage + timeline.cost snapshot := by
  unfold record affords at refused
  split at refused
  · cases refused
  · rename_i expensive
    simpa using expensive

@[simp]
theorem dropLast_budget : timeline.dropLast.budget = timeline.budget := by
  unfold dropLast
  split <;> rfl

@[simp]
theorem dropLast_snapshots :
    timeline.dropLast.snapshots.toList = timeline.snapshots.toList.dropLast := by
  unfold dropLast
  split
  · rename_i none
    have empty : timeline.snapshots = #[] := by simpa using none
    rw [empty]
    rfl
  · rw [Array.toList_pop]

/-- The usage covers what the last snapshot was charged. -/
theorem Balanced.usage_eq (balanced : timeline.Balanced) {last : Snapshot}
    (found : timeline.snapshots.back? = some last) : timeline.usage =
      total none timeline.snapshots.pop.toList + charge timeline.snapshots.pop.back? last := by
  have split : timeline.snapshots.toList = timeline.snapshots.pop.toList ++ [last] := by
    rw [Array.toList_pop]
    refine (List.dropLast_append_getLast? last ?_).symm
    rw [Array.getLast?_toList, found]
    rfl
  rw [balanced.charged, split, total_concat, Option.or_none, Array.getLast?_toList]

theorem dropLast_balanced (balanced : timeline.Balanced) : timeline.dropLast.Balanced := by
  unfold dropLast
  split
  · exact balanced
  · rename_i last found
    refine ⟨by simp only [balanced.usage_eq found, Nat.add_sub_cancel_right], ?_⟩
    exact Nat.le_trans (Nat.sub_le ..) balanced.affordable

theorem repeat_dropLast_balanced (balanced : timeline.Balanced) (given : Nat) :
    (Nat.repeat dropLast given timeline).Balanced := by
  induction given with
  | zero => exact balanced
  | succ given ih => exact dropLast_balanced ih

theorem truncate_budget (timeline : Timeline) (count : Nat) :
    (timeline.truncate count).budget = timeline.budget := by
  unfold truncate
  induction timeline.length - count with
  | zero => rfl
  | succ given ih => rw [Nat.repeat, dropLast_budget, ih]

theorem repeat_dropLast_snapshots (timeline : Timeline) (given : Nat) :
    (Nat.repeat dropLast given timeline).snapshots.toList =
      timeline.snapshots.toList.take (timeline.length - given) := by
  rw [length_eq]
  induction given with
  | zero => rw [Nat.repeat, Nat.sub_zero, List.take_length]
  | succ given ih =>
    rw [Nat.repeat, dropLast_snapshots, ih, List.dropLast_eq_take, List.take_take, List.length_take]
    congr 1
    omega

theorem truncate_snapshots (timeline : Timeline) (count : Nat) :
    (timeline.truncate count).snapshots.toList = timeline.snapshots.toList.take count := by
  rw [truncate, repeat_dropLast_snapshots, length_eq]
  by_cases all : timeline.snapshots.toList.length ≤ count
  · rw [List.take_of_length_le all, List.take_of_length_le (by omega)]
  · congr 1
    omega

theorem truncate_balanced (balanced : timeline.Balanced) (count : Nat) :
    (timeline.truncate count).Balanced :=
  repeat_dropLast_balanced balanced _

end Befunge.Timeline
