import Befunge.Proofs.Navigation
import Befunge.Viewer.Basic

/-! The viewer is a cursor over a record that it never changes. Keys and the playback move
the cursor, and the session shown is always the recorded one with its cursor there. -/
namespace Befunge

namespace Session

variable {σ : Type}

/-- The session with its cursor at the snapshot with the given number. -/
def seek (session : Session σ) (index : Nat) : Session σ :=
  match session.timeline.snapshots.toList[index]? with
  | some snapshot => session.visit index snapshot
  | none => session

theorem seek_of_found {session : Session σ} {index : Nat} {snapshot : Snapshot}
    (found : session.timeline.snapshots.toList[index]? = some snapshot) :
    session.seek index = session.visit index snapshot := by
  rw [seek, found]

variable [DirectionSource σ] {setting : Setting} {session : Session σ} {index : Nat}

theorem restore_eq_seek (kept : session.Kept setting) (inside : index < session.timeline.length) :
    session.restore index = .ok (session.seek index) := by
  have found := List.getElem?_eq_getElem inside
  rw [seek_of_found found]
  exact restore_eq_visit kept found

theorem restore_seek (coherent : session.Coherent setting) {other : Nat}
    (inside : index < session.timeline.length) (there : other < session.timeline.length) :
    (session.seek index).restore other = .ok (session.seek other) := by
  have found := List.getElem?_eq_getElem inside
  have foundThere := List.getElem?_eq_getElem there
  rw [seek_of_found found, seek_of_found foundThere]
  exact restore_eq_visit (visit_coherent coherent found).toKept foundThere

omit [DirectionSource σ] in
theorem seek_fields (inside : index < session.timeline.length) :
    (session.seek index).timeline = session.timeline ∧ (session.seek index).position = index ∧
      (session.seek index).atSnapshot = true := by
  rw [seek_of_found (List.getElem?_eq_getElem inside)]
  exact ⟨rfl, rfl, rfl⟩

omit [DirectionSource σ] in
theorem isEmpty_eq_false (filled : 0 < session.timeline.length) :
    session.timeline.isEmpty = false := by
  simpa [Timeline.isEmpty, Timeline.length, Nat.pos_iff_ne_zero] using filled

section Seeking

variable (coherent : session.Coherent setting) (inside : index < session.timeline.length)
include coherent inside

theorem stepForward_seek : (session.seek index).stepForward =
    if index + 1 < session.timeline.length then .ok (session.seek (index + 1))
    else .error (.atEnd index) := by
  obtain ⟨timeline, position, attached⟩ := seek_fields inside
  have filled := isEmpty_eq_false (Nat.zero_lt_of_lt inside)
  by_cases further : index + 1 < session.timeline.length
  · have more : ¬ session.timeline.length ≤ index + 1 := Nat.not_le_of_lt further
    simp [stepForward, timeline, position, attached, filled, more, further,
      restore_seek coherent inside further]
  · have ended : session.timeline.length ≤ index + 1 := Nat.le_of_not_lt further
    simp [stepForward, timeline, position, attached, filled, ended, further]

theorem stepBackward_seek : (session.seek index).stepBackward =
    if index = 0 then .error .atStart else .ok (session.seek (index - 1)) := by
  obtain ⟨timeline, position, attached⟩ := seek_fields inside
  have filled := isEmpty_eq_false (Nat.zero_lt_of_lt inside)
  simp [stepBackward, timeline, position, attached, filled,
    restore_seek coherent inside (Nat.lt_of_le_of_lt (Nat.sub_le index 1) inside)]

theorem rewind_seek : (session.seek index).rewind = .ok (session.seek 0) := by
  obtain ⟨timeline, _, _⟩ := seek_fields inside
  rw [rewind, timeline, isEmpty_eq_false (by omega), restore_seek coherent inside (by omega)]
  rfl

theorem jumpToEnd_seek :
    (session.seek index).jumpToEnd = .ok (session.seek (session.timeline.length - 1)) := by
  obtain ⟨timeline, _, _⟩ := seek_fields inside
  rw [jumpToEnd, timeline, isEmpty_eq_false (by omega), restore_seek coherent inside (by omega)]
  rfl

end Seeking

end Session

namespace Viewer

variable {σ : Type}

/-- What happens to a viewer. Keys come with the milliseconds since the last space, ticks with
those since the last step played. -/
inductive Event where
  | key (key : Key) (sinceSpace : Nat)
  | render (width height : Nat)
  | tick (sinceStep : Nat)
  deriving DecidableEq

def handle (viewer : Viewer σ) : Event → Viewer σ
  | .key key sinceSpace => viewer.press key sinceSpace
  | .render width height => (viewer.draw width height).2
  | .tick sinceStep => viewer.tick sinceStep

def after (viewer : Viewer σ) (events : List Event) : Viewer σ := events.foldl handle viewer

/-- A place in a record, and whether the playback moves it on. -/
structure Cursor where
  position : Nat
  playing : Bool
  deriving DecidableEq

namespace Cursor

def start : Cursor := ⟨0, false⟩

/-- The cursor never leaves the places up to `last`. -/
def handle (last : Nat) (cursor : Cursor) : Event → Cursor
  | .key .right _ => ⟨min (cursor.position + 1) last, false⟩
  | .key .left _ => ⟨cursor.position - 1, false⟩
  | .key .enter _ => ⟨last, false⟩
  | .key .backspace _ => ⟨0, false⟩
  | .key (.character symbol) sinceSpace =>
    if '1' ≤ symbol ∧ symbol ≤ '9' then
      ⟨min (cursor.position + (symbol.toNat - '0'.toNat)) last, false⟩
    else if symbol = ' ' ∧ spaceInterval ≤ sinceSpace then {cursor with playing := !cursor.playing}
    else cursor
  | .tick sinceStep =>
    if cursor.playing ∧ playInterval ≤ sinceStep then
      ⟨min (cursor.position + 1) last, cursor.position ≠ last⟩
    else cursor
  | _ => cursor

end Cursor

section Simulation

variable [DirectionSource σ] {setting : Setting} {base : Session σ} {index : Nat}

theorem forward_seek (coherent : base.Coherent setting) (inside : index < base.timeline.length)
    (count : Nat) : forward count (base.seek index) =
      (min (index + count) (base.timeline.length - 1) - index,
        base.seek (min (index + count) (base.timeline.length - 1))) := by
  induction count generalizing index with
  | zero =>
    have here : min (index + 0) (base.timeline.length - 1) = index := by omega
    rw [here, Nat.sub_self]
    rfl
  | succ count ih =>
    rw [forward, Session.stepForward_seek coherent inside]
    by_cases further : index + 1 < base.timeline.length
    · simp only [if_pos further, ih further]
      rw [Nat.add_assoc, Nat.add_comm 1 count]
      congr 1
      omega
    · have here : min (index + (count + 1)) (base.timeline.length - 1) = index := by omega
      simp only [if_neg further, here, Nat.sub_self]

/-- The viewer shows the record at the place of the cursor. -/
structure Shows (base : Session σ) (cursor : Cursor) (viewer : Viewer σ) : Prop where
  session : viewer.session = base.seek cursor.position
  inside : cursor.position < base.timeline.length
  playing : viewer.playing = cursor.playing

variable {viewer : Viewer σ} {cursor : Cursor}

omit [DirectionSource σ] in
theorem Shows.move (shows : viewer.Shows base cursor)
    {result : Except HistoryError (Session σ)} {place : Nat} (within : place < base.timeline.length)
    (moved : result = .ok (base.seek place) ∨
      place = cursor.position ∧ ∃ error, result = .error error) (success failure : String) :
    (viewer.stop.move success failure result).Shows base ⟨place, false⟩ := by
  obtain rfl | ⟨rfl, error, rfl⟩ := moved
  · exact ⟨rfl, within, rfl⟩
  · exact ⟨shows.session, within, rfl⟩

theorem skip_of_shows (shows : viewer.Shows base cursor) (coherent : base.Coherent setting)
    (count : Nat) : viewer.stop.skip count =
      {viewer with
        session := base.seek (min (cursor.position + count) (base.timeline.length - 1))
        playing := false
        message :=
          let taken := min (cursor.position + count) (base.timeline.length - 1) - cursor.position
          s!"Stepped forward {taken} step(s)"
        outputScroll := lastOffset} := by
  have start : viewer.stop.session = base.seek cursor.position := shows.session
  rw [skip, start, forward_seek coherent shows.inside]
  rfl

omit [DirectionSource σ] in
theorem stays_of_digit {symbol : Char} (digit : '1' ≤ symbol ∧ symbol ≤ '9') :
    ¬ (symbol = 'q' ∨ symbol = 'Q') := by
  rintro (rfl | rfl) <;> exact absurd digit (by decide)

theorem Shows.pressCharacter (shows : viewer.Shows base cursor) (coherent : base.Coherent setting)
    (symbol : Char) (sinceSpace : Nat) :
    (viewer.pressCharacter symbol sinceSpace).Shows base
      (cursor.handle (base.timeline.length - 1) (.key (.character symbol) sinceSpace)) := by
  have inside := shows.inside
  simp only [Viewer.pressCharacter, Cursor.handle]
  by_cases quits : symbol = 'q' ∨ symbol = 'Q'
  · have digit : ¬ ('1' ≤ symbol ∧ symbol ≤ '9') := fun digit => stays_of_digit digit quits
    have space : symbol ≠ ' ' := by
      obtain rfl | rfl := quits <;> decide
    rw [if_pos quits, if_neg digit, if_neg (fun both => space both.1)]
    exact ⟨shows.session, inside, shows.playing⟩
  · rw [if_neg quits]
    split_ifs with digit space
    · rw [skip_of_shows shows coherent]
      exact ⟨rfl, Nat.lt_of_le_of_lt (Nat.min_le_right _ _) (by omega), rfl⟩
    · exact ⟨shows.session, inside, congrArg not shows.playing⟩
    · exact shows

theorem Shows.press (shows : viewer.Shows base cursor) (coherent : base.Coherent setting)
    (key : Key) (sinceSpace : Nat) :
    (viewer.press key sinceSpace).Shows base
      (cursor.handle (base.timeline.length - 1) (.key key sinceSpace)) := by
  have inside := shows.inside
  cases key with
  | left =>
    apply shows.move (by omega)
    rw [shows.session, Session.stepBackward_seek coherent inside]
    split_ifs with start
    · exact .inr ⟨by omega, _, rfl⟩
    · exact .inl rfl
  | right =>
    apply shows.move (by omega)
    rw [shows.session, Session.stepForward_seek coherent inside]
    split_ifs with further
    · rw [Nat.min_eq_left (by omega)]
      exact .inl rfl
    · exact .inr ⟨by omega, _, rfl⟩
  | enter =>
    simp only [Viewer.press, shows.session, Session.jumpToEnd_seek coherent inside]
    exact ⟨rfl, Nat.sub_one_lt (Nat.ne_zero_of_lt inside), rfl⟩
  | backspace =>
    simp only [Viewer.press, shows.session, Session.rewind_seek coherent inside]
    exact ⟨rfl, Nat.zero_lt_of_lt inside, rfl⟩
  | character symbol => exact shows.pressCharacter coherent symbol sinceSpace
  | tab | backTab | other => exact ⟨shows.session, inside, shows.playing⟩
  | up | down =>
    simp only [Viewer.press, scrollFocused]
    split <;> exact ⟨shows.session, inside, shows.playing⟩

theorem Shows.tick (shows : viewer.Shows base cursor) (coherent : base.Coherent setting)
    (sinceStep : Nat) :
    (viewer.tick sinceStep).Shows base
      (cursor.handle (base.timeline.length - 1) (.tick sinceStep)) := by
  have inside := shows.inside
  rw [Viewer.tick, Cursor.handle, shows.playing, shows.session,
    Session.stepForward_seek coherent inside]
  split_ifs with due further
  · have place : min (cursor.position + 1) (base.timeline.length - 1) = cursor.position + 1 := by
      omega
    have short : cursor.position ≠ base.timeline.length - 1 := by omega
    rw [place]
    exact ⟨rfl, further, due.1.trans (decide_eq_true short).symm⟩
  · have place : min (cursor.position + 1) (base.timeline.length - 1) = cursor.position := by omega
    have ended : cursor.position = base.timeline.length - 1 := by omega
    rw [place]
    exact ⟨shows.session, inside, by simp [← ended, Viewer.note, Viewer.stop]⟩
  · exact shows

theorem Shows.digit_message (shows : viewer.Shows base cursor) (coherent : base.Coherent setting)
    {symbol : Char} (digit : '1' ≤ symbol ∧ symbol ≤ '9') (sinceSpace : Nat) :
    let count := symbol.toNat - '0'.toNat
    let taken := min (cursor.position + count) (base.timeline.length - 1) - cursor.position
    (viewer.press (.character symbol) sinceSpace).message =
      s!"Stepped forward {taken} step(s)" := by
  intro count taken
  rw [Viewer.press, Viewer.pressCharacter, if_neg (stays_of_digit digit), if_pos digit,
    skip_of_shows shows coherent]

theorem Shows.due_tick (shows : viewer.Shows base cursor) (coherent : base.Coherent setting)
    (playing : viewer.playing = true) {sinceStep : Nat} (due : playInterval ≤ sinceStep) :
    ((viewer.tick sinceStep).playing = false ↔ cursor.position = base.timeline.length - 1) ∧
      ((viewer.tick sinceStep).message = "Playback complete" ↔
        cursor.position = base.timeline.length - 1) := by
  have inside := shows.inside
  rw [Viewer.tick, if_pos ⟨playing, due⟩, shows.session, Session.stepForward_seek coherent inside]
  split_ifs with further
  · have short : cursor.position ≠ base.timeline.length - 1 := by omega
    simp [note, showEnd, playing, short]
  · have ended : cursor.position = base.timeline.length - 1 := by omega
    simp [note, stop, ended]

theorem Shows.handle (shows : viewer.Shows base cursor) (coherent : base.Coherent setting)
    (event : Event) :
    (viewer.handle event).Shows base (cursor.handle (base.timeline.length - 1) event) := by
  cases event with
  | key key sinceSpace => exact shows.press coherent key sinceSpace
  | render width height => exact ⟨shows.session, shows.inside, shows.playing⟩
  | tick sinceStep => exact shows.tick coherent sinceStep

theorem shows_rewound (coherent : base.Coherent setting) (filled : 0 < base.timeline.length) :
    (new (base.perform .rewind).2).Shows base .start := by
  have rewound : (base.perform .rewind).2 = base.seek 0 := by
    simp [Session.perform, Session.navigated, Session.rewind, Session.isEmpty_eq_false filled,
      Session.restore_eq_seek coherent.toKept filled]
  exact ⟨rewound, filled, rfl⟩

theorem Shows.after (shows : viewer.Shows base cursor) (coherent : base.Coherent setting)
    (events : List Event) :
    (viewer.after events).Shows base
      (events.foldl (Cursor.handle (base.timeline.length - 1)) cursor) := by
  induction events generalizing viewer cursor with
  | nil => exact shows
  | cons event events ih => exact ih (shows.handle coherent event)

end Simulation

section Idle

variable {viewer : Viewer σ}

theorem forward_of_empty {session : Session σ} (empty : session.timeline.isEmpty = true)
    (count : Nat) : forward count session = (0, session) := by
  cases count <;> simp [forward, Session.stepForward, empty]

theorem handle_of_empty (empty : viewer.session.timeline.isEmpty = true) (event : Event) :
    (viewer.handle event).session = viewer.session := by
  cases event with
  | render width height => rfl
  | tick sinceStep =>
    simp only [handle, tick, Session.stepForward, empty, if_true]
    split_ifs <;> rfl
  | key key sinceSpace =>
    cases key with
    | character symbol =>
      simp only [handle, press, pressCharacter, skip]
      split_ifs
      · rfl
      · exact congrArg Prod.snd (forward_of_empty empty _)
      · rfl
      · rfl
    | left => simp [handle, press, move, Session.stepBackward, empty, note, stop]
    | right => simp [handle, press, move, Session.stepForward, empty, note, stop]
    | enter => simp [handle, press, jump, move, Session.jumpToEnd, empty, note, stop, showEnd]
    | backspace => simp [handle, press, jump, move, Session.rewind, empty, note, stop, showEnd]
    | up | down =>
      simp only [handle, press, scrollFocused]
      split <;> rfl
    | tab | backTab | other => rfl

theorem after_of_empty (empty : viewer.session.timeline.isEmpty = true) (events : List Event) :
    (viewer.after events).session = viewer.session := by
  induction events generalizing viewer with
  | nil => rfl
  | cons event events ih =>
    have kept := handle_of_empty empty event
    exact (ih (kept ▸ empty)).trans kept

end Idle

variable [DirectionSource σ]

/-- Keys, drawings and ticks move a cursor over a record and change nothing in it. Without a
record they leave the session alone. -/
theorem viewer_is_cursor (source : String) (config : Config) (directions : σ)
    (commands : List Command) (events : List Event) :
    let session := (Session.new source config directions).after commands
    let viewer := (new (session.perform .rewind).2).after events
    let last := session.timeline.length - 1
    let cursor := events.foldl (Cursor.handle last) .start
    (0 < session.timeline.length →
      viewer.session.timeline = session.timeline ∧
      viewer.session.truncated = session.truncated ∧
      viewer.session.position = cursor.position ∧ viewer.playing = cursor.playing ∧
      (∃ snapshot, session.timeline.snapshots.toList[cursor.position]? = some snapshot ∧
        viewer.session.machine = snapshot.machine) ∧
      (∀ symbol sinceSpace, '1' ≤ symbol ∧ symbol ≤ '9' →
        let count := symbol.toNat - '0'.toNat
        let taken := min (cursor.position + count) last - cursor.position
        (viewer.press (.character symbol) sinceSpace).message =
          s!"Stepped forward {taken} step(s)") ∧
      ∀ sinceStep, viewer.playing = true → playInterval ≤ sinceStep →
        ((viewer.tick sinceStep).playing = false ↔ cursor.position = last) ∧
        ((viewer.tick sinceStep).message = "Playback complete" ↔ cursor.position = last)) ∧
    ∀ idle : Viewer σ, idle.session.timeline.length = 0 →
      (idle.after events).session = idle.session := by
  intro session viewer last cursor
  refine ⟨fun filled => ?_, fun idle empty => ?_⟩
  swap
  · have none : idle.session.timeline.isEmpty = true := by
      simpa [Timeline.isEmpty, Timeline.length] using empty
    exact after_of_empty none events
  have coherent := Session.new_after_coherent source config directions commands
  have shows : viewer.Shows session cursor :=
    (shows_rewound coherent filled).after coherent events
  obtain ⟨snapshot, found⟩ : ∃ snapshot,
      session.timeline.snapshots.toList[cursor.position]? = some snapshot :=
    ⟨_, List.getElem?_eq_getElem shows.inside⟩
  have here : viewer.session = session.visit cursor.position snapshot :=
    shows.session.trans (Session.seek_of_found found)
  refine ⟨by rw [here]; rfl, by rw [here]; rfl, by rw [here]; rfl, shows.playing,
    ⟨snapshot, found, by rw [here]; rfl⟩, fun symbol sinceSpace digit => ?_,
    fun sinceStep playing due => ?_⟩
  · exact shows.digit_message coherent digit sinceSpace
  · exact shows.due_tick coherent playing due

theorem viewer_is_cursor_of_playback :
    let session := (Session.new "12+.@" ⟨100, true, 10000⟩ (Script.ofList [])).after [.run]
    let viewer := (new (session.perform .rewind).2).after
      [.key (.character '3') 0, .render 80 24, .key (.character ' ') 200, .tick 150, .tick 149]
    0 < session.timeline.length ∧ viewer.session.position = 4 ∧ viewer.playing = true := by
  have shown := viewer_is_cursor "12+.@" ⟨100, true, 10000⟩ (Script.ofList []) [.run]
    [.key (.character '3') 0, .render 80 24, .key (.character ' ') 200, .tick 150, .tick 149]
  intro session viewer
  extract_lets last cursor at shown
  have count : session.timeline.length = 6 := by decide +kernel
  have reached : cursor = ⟨4, true⟩ := by decide +kernel
  clear_value viewer cursor
  obtain ⟨_, _, position, playing, _⟩ := shown.1 (by omega)
  subst reached
  exact ⟨by omega, position, playing⟩

end Viewer

end Befunge
