import Befunge.Proofs.Accounting
import Mathlib.Algebra.Ring.Nat
import Mathlib.Data.List.Induction

/-! Timelines under any use. Whatever is recorded and however much of it is given up again, the
usage is what the snapshots still held cost one after another, as if there had been no others. -/
namespace Befunge.Timeline

inductive Use where
  | record (snapshot : Snapshot)
  | truncate (count : Nat)

/-- A snapshot that is refused leaves the timeline as it was. -/
def apply (timeline : Timeline) : Use → Timeline
  | .record snapshot =>
    match timeline.record snapshot with
    | .ok next => next
    | .error _ => timeline
  | .truncate count => timeline.truncate count

variable {timeline : Timeline} {snapshot : Snapshot}

theorem total_eq_sum_zipWith (previous : Option Snapshot) (snapshots : List Snapshot) :
    total previous snapshots =
      (List.zipWith charge (previous :: snapshots.map some) snapshots).sum := by
  induction snapshots generalizing previous with
  | nil => rfl
  | cons snapshot rest ih =>
    rw [total, ih, List.map_cons, List.zipWith_cons_cons, List.sum_cons]

theorem total_take_le (snapshots : List Snapshot) (count : Nat) :
    total none (snapshots.take count) ≤ total none snapshots := by
  have parts := total_append none (snapshots.take count) (snapshots.drop count)
  rw [List.take_append_drop] at parts
  exact Nat.le.intro parts.symm

theorem record_eq (timeline : Timeline) (snapshot : Snapshot) : timeline.record snapshot =
    if timeline.budget < timeline.usage + timeline.cost snapshot then
      .error (.budgetExceeded timeline.usage timeline.budget)
    else .ok (timeline.append snapshot) := by
  unfold record affords
  by_cases afforded : timeline.usage + timeline.cost snapshot ≤ timeline.budget
  · rw [if_pos (decide_eq_true afforded), if_neg (Nat.not_lt.mpr afforded)]
  · rw [if_neg (by simpa using afforded), if_pos (Nat.lt_of_not_le afforded)]

theorem apply_budget (timeline : Timeline) (use : Use) :
    (timeline.apply use).budget = timeline.budget := by
  cases use with
  | record snapshot =>
    rw [apply, record_eq]
    split_ifs <;> rfl
  | truncate count => exact truncate_budget timeline count

theorem apply_balanced (balanced : timeline.Balanced) (use : Use) :
    (timeline.apply use).Balanced := by
  cases use with
  | record snapshot =>
    rw [apply, record_eq]
    split_ifs with expensive
    · exact balanced
    · exact append_balanced balanced (Nat.le_of_not_lt expensive)
  | truncate count => exact truncate_balanced balanced count

theorem foldl_apply_balanced (balanced : timeline.Balanced) (uses : List Use) :
    (uses.foldl apply timeline).Balanced ∧
      (uses.foldl apply timeline).budget = timeline.budget := by
  induction uses generalizing timeline with
  | nil => exact ⟨balanced, rfl⟩
  | cons use uses ih =>
    have rest := ih (apply_balanced balanced use)
    rwa [apply_budget] at rest

/-- Snapshots that are affordable together are recorded one after another. -/
theorem foldlM_record {budget : Nat} {snapshots : List Snapshot}
    (affordable : total none snapshots ≤ budget) : snapshots.foldlM record (empty budget) =
      .ok ⟨budget, snapshots.toArray, total none snapshots⟩ := by
  induction snapshots using List.reverseRecOn with
  | nil => rfl
  | append_singleton snapshots last ih =>
    rw [total_concat, Option.or_none] at affordable
    have cost : cost ⟨budget, snapshots.toArray, total none snapshots⟩ last =
        charge snapshots.getLast? last := cost_eq ..
    have appended := record_eq ⟨budget, snapshots.toArray, total none snapshots⟩ last
    rw [cost, if_neg (Nat.not_lt.mpr affordable), append, cost, List.push_toArray] at appended
    rw [List.foldlM_append, ih (by omega), total_concat, Option.or_none]
    simp only [List.foldlM_cons, List.foldlM_nil, bind_pure]
    exact appended

theorem foldlM_record_take (balanced : timeline.Balanced) (count : Nat) :
    (timeline.snapshots.toList.take count).foldlM record (empty timeline.budget) =
      .ok (timeline.truncate count) := by
  have charged := (truncate_balanced balanced count).charged
  have snapshots := truncate_snapshots timeline count
  have affordable : total none (timeline.snapshots.toList.take count) ≤ timeline.budget :=
    Nat.le_trans (total_take_le _ count) (balanced.charged ▸ balanced.affordable)
  rw [foldlM_record affordable, ← truncate_budget timeline count, ← snapshots, ← charged]

theorem dropLast_usage (balanced : timeline.Balanced) {last : Snapshot}
    (found : timeline.snapshots.back? = some last) : timeline.usage =
      timeline.dropLast.usage + charge timeline.snapshots.pop.back? last := by
  have covered := balanced.usage_eq found
  have freed : timeline.dropLast.usage =
      timeline.usage - charge timeline.snapshots.pop.back? last := by
    rw [dropLast, found]
  omega

theorem repeat_dropLast_back? {given : Nat} (before : given < timeline.length) :
    ∃ last, (Nat.repeat dropLast given timeline).snapshots.back? = some last := by
  have filled : (Nat.repeat dropLast given timeline).snapshots.toList ≠ [] := by
    rw [repeat_dropLast_snapshots, ← List.length_pos_iff, List.length_take, ← length_eq]
    omega
  rw [← Array.getLast?_toList]
  exact ⟨_, List.getLast?_eq_some_getLast filled⟩

/-- Under any use the usage of a timeline is the sum of what the snapshots held cost, each after the
one before it, and it keeps to the budget. A snapshot is refused just when it would exceed that.
Giving up snapshots frees what they cost, round by round, and leaves a timeline on which only the
others were ever recorded. -/
theorem usage_exact_under_any_use (budget : Nat) (uses : List Use) :
    let timeline := uses.foldl apply (empty budget)
    let held := timeline.snapshots.toList
    let sum := (List.zipWith charge (none :: held.map some) held).sum
    timeline.usage = sum ∧ sum ≤ budget ∧
    (∀ snapshot,
      ((∃ error, timeline.record snapshot = .error error) ↔
        budget < sum + charge held.getLast? snapshot) ∧
      (∀ error, timeline.record snapshot = .error error →
        error = .budgetExceeded timeline.usage budget ∧
          timeline.apply (.record snapshot) = timeline) ∧
      ∀ next, timeline.record snapshot = .ok next → next.snapshots.toList = held ++ [snapshot]) ∧
    ∀ count,
      (∀ given < timeline.length - count,
        let cut := Nat.repeat dropLast given timeline
        ∃ last, cut.snapshots.back? = some last ∧
          cut.usage = cut.dropLast.usage + charge cut.snapshots.pop.back? last) ∧
      (held.take count).foldlM record (empty budget) = .ok (timeline.truncate count) := by
  intro timeline held sum
  obtain ⟨balanced, limit⟩ : timeline.Balanced ∧ timeline.budget = budget :=
    foldl_apply_balanced (empty_balanced budget) uses
  have usage : timeline.usage = sum := balanced.charged.trans (total_eq_sum_zipWith none held)
  refine ⟨usage, usage ▸ limit ▸ balanced.affordable, ?_, ?_⟩
  · intro snapshot
    have recorded := record_eq timeline snapshot
    rw [limit, cost_eq] at recorded
    rw [← usage, recorded]
    split_ifs with expensive
    · refine ⟨⟨fun _ => expensive, fun _ => ⟨_, rfl⟩⟩, ?_, ?_⟩
      · rintro error refused
        obtain rfl := Except.error.inj refused
        exact ⟨rfl, by rw [apply, recorded, if_pos expensive]⟩
      · rintro next ⟨⟩
    · refine ⟨⟨?_, fun more => absurd more expensive⟩, ?_, ?_⟩
      · rintro ⟨error, ⟨⟩⟩
      · rintro error ⟨⟩
      · rintro next ok
        obtain rfl := Except.ok.inj ok
        exact append_snapshots
  · intro count
    refine ⟨?_, ?_⟩
    · intro given before cut
      obtain ⟨last, found⟩ := repeat_dropLast_back? (Nat.lt_of_lt_of_le before (Nat.sub_le ..))
      exact ⟨last, found, dropLast_usage (repeat_dropLast_balanced balanced given) found⟩
    · exact limit ▸ foldlM_record_take balanced count

end Befunge.Timeline
