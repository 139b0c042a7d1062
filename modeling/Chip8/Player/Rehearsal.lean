import Chip8.Player.Launch

/-!
# Rehearsals

A desktop that follows a script, so that a run of the program can be told exactly. The script lists
what the window shows of the keyboard, frame by frame: a frame lasts until the window is updated, and
when updates have used up the frames the window is closed. The clock stands still but for what the
script says: the work before each pass, the time an update takes, and sleep with some oversleep.
-/

namespace Chip8
set_option autoImplicit false

structure Frame where
  held : List KeyboardKey
  /-- The keys reported as pressed, each as often as it occurs. -/
  pressed : List KeyboardKey
  /-- Whether pressed keys are reported again and again. -/
  sticky : Bool
  /-- Microseconds that pass before each pass of the main loop, if not as usual. -/
  work : Option Nat

structure Script where
  files : FileTree
  card : Option SoundCard
  frames : List Frame
  /-- Microseconds that usually pass before each pass of the main loop. -/
  work : Nat
  /-- Microseconds that an update of the window takes. -/
  draw : Nat
  /-- Microseconds that each sleep is too long. -/
  oversleep : Nat
  /-- How often the window says that it is open. -/
  maxPasses : Nat
  /-- The text with which the window fails to open. -/
  windowFailure : Option String
  /-- The frame in which new pixels are refused. -/
  updateFailure : Option Nat
  /-- Samples that the sound card asks for after each update. -/
  pull : Nat

/-- What is seen of the window, with times in microseconds and the samples that the card then got. -/
inductive WindowEvent where
  | opened (title : String) (width height : Nat) (scale : Scale)
  | refreshed (time : Nat) (samples : Option (List Sample))
  | presented (time : Nat) (samples : Option (List Sample)) (pixels : Array UInt32)

structure Rehearsal where
  /-- Microseconds since the start. -/
  time : Nat
  /-- How often the window was asked whether it is open. -/
  passes : Nat
  updates : Nat
  /-- The frames that are left, with the current one first. -/
  frames : List Frame
  beeper : Beeper
  output : Array String
  complaints : Array String
  events : Array WindowEvent

namespace Rehearsal

def start (s : Script) : Rehearsal := ⟨0, 0, 0, s.frames, .silent, #[], #[], #[]⟩

/-- Says whether the window is open, after the work of the current frame. -/
def askOpen (s : Script) (r : Rehearsal) : Bool × Rehearsal :=
  let work := (r.frames.head?.bind Frame.work).getD s.work
  let passes := r.passes + 1
  (!r.frames.isEmpty && passes ≤ s.maxPasses, { r with time := r.time + work, passes := passes })

def heldKeys (r : Rehearsal) (key : KeyboardKey) : Bool :=
  r.frames.head?.any fun f => f.held.contains key

/-- Says whether a key is reported as pressed, which uses up the report. -/
def askPressed (key : KeyboardKey) (r : Rehearsal) : Bool × Rehearsal :=
  match r.frames with
  | [] => (false, r)
  | f :: rest =>
    if f.pressed.contains key then
      let f := if f.sticky then f else { f with pressed := f.pressed.erase key }
      (true, { r with frames := f :: rest })
    else (false, r)

theorem askPressed_frames (key : KeyboardKey) (r : Rehearsal) :
    ∃ frames, (askPressed key r).2 = { r with frames := frames } := by
  unfold askPressed
  split
  · exact ⟨_, rfl⟩
  · split
    · exact ⟨_, rfl⟩
    · exact ⟨_, rfl⟩

/-- An update of the window: what is seen of it, the samples, and the next frame. -/
def update (s : Script) (event : Nat → Option (List Sample) → WindowEvent) (r : Rehearsal) :
    Rehearsal :=
  let (samples, beeper) := if s.pull = 0 then (none, r.beeper) else r.beeper.pull s.pull
  { r with
    beeper := beeper
    events := r.events.push (event r.time samples)
    time := r.time + s.draw
    updates := r.updates + 1
    frames := r.frames.tail }

/-- The desktop of a script. No random byte of a rehearsal matters. -/
def desktop (s : Script) : Desktop (StateM Rehearsal) where
  readFile path := pure (s.files.read path)
  print text := modify fun r => { r with output := r.output.push text }
  complain text := modify fun r => { r with complaints := r.complaints.push text }
  random := pure fun _ => 0
  openWindow title width height scale :=
    match s.windowFailure with
    | some text => pure (.error (.notCreated text))
    | none => do
      modify fun r => { r with events := r.events.push (.opened title width height scale) }
      return .ok ()
  soundCard := pure s.card
  install beeper := modify fun r => { r with beeper := beeper }
  setTone on := modify fun r => { r with beeper := r.beeper.setActive on }
  isOpen := modifyGet (askOpen s)
  held := return (← get).heldKeys
  isPressed key := modifyGet (askPressed key)
  clock := return (← get).time * 1000
  sleep micros := modify fun r => { r with time := r.time + micros + s.oversleep }
  present pixels := do
    if s.updateFailure = some (← get).updates then return .error (.notUpdated "scripted")
    else
      modify (update s fun time samples => .presented time samples pixels)
      return .ok ()
  refresh := modify (update s .refreshed)

theorem present_run (s : Script) (pixels : Array UInt32) (r : Rehearsal) :
    ((desktop s).present pixels).run r =
      if s.updateFailure = some r.updates then (.error (.notUpdated "scripted"), r)
      else (.ok (), update s (fun time samples => .presented time samples pixels) r) := by
  change (if s.updateFailure = some r.updates then return .error (.notUpdated "scripted")
    else do
      modify (update s fun time samples => .presented time samples pixels)
      return .ok () : StateM Rehearsal (Except WindowError Unit)).run r = _
  split
  · rfl
  · rfl

def program (s : Script) (args : List String) : Launch × Rehearsal :=
  (Launch.program (desktop s) (s.maxPasses + 1) args).run (start s)

end Rehearsal
end Chip8
