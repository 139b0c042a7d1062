import Chip8.Log
import Chip8.Sound.Tone

/-!
# The beeper

A tone on the sound card that can be switched on and off. The card may be missing or refuse, and then
there is a reason; a silent beeper takes its place.
-/

namespace Chip8
set_option autoImplicit false

/-- A sound card as it presents itself: its preferred stream, and the answers to the calls that open a
stream, each an error text or success. -/
structure SoundCard where
  format : SampleFormat
  rate : UInt32
  channels : Nat
  name : Option String
  configFailure : Option String
  buildFailure : Option String
  playFailure : Option String

inductive SoundError where
  | noCard
  /-- The card failed, in its own words. -/
  | card (text : String)
  | unsupportedFormat (format : SampleFormat)
  deriving DecidableEq, Repr

def SoundError.message : SoundError → String
  | noCard => "no audio output device available"
  | card text => text
  | unsupportedFormat format => s!"unsupported sample format '{format.name}'"

structure Beeper where
  on : Bool
  /-- The stream that plays, unless the beeper is silent. -/
  stream : Option ToneStream

namespace Beeper

def silent : Beeper := ⟨false, none⟩

/-- The stream of a card, or the first thing that goes wrong. -/
def openStream (frequency : Float32) : Option SoundCard → Except SoundError (SoundCard × ToneStream)
  | none => .error .noCard
  | some c =>
    match c.configFailure with
    | some text => .error (.card text)
    | none =>
      if !c.format.isSupported then .error (.unsupportedFormat c.format)
      else match c.buildFailure, c.playFailure with
        | some text, _ => .error (.card text)
        | none, some text => .error (.card text)
        | none, none => .ok (c, ⟨c.format, c.channels, frequency, c.rate.toFloat32, 0⟩)

def openedRecord (c : SoundCard) : Record :=
  let name := c.name.getD "unknown device"
  ⟨.info, s!"Audio on {name} at {c.rate} Hz, {c.format.label}"⟩

/-- A beeper on a card, switched off, with what is logged. -/
def start (frequency : Float32) (card : Option SoundCard) :
    Except SoundError (Beeper × List Record) := do
  let (c, stream) ← openStream frequency card
  return (⟨false, some stream⟩, [openedRecord c])

def setActive (b : Beeper) (on : Bool) : Beeper := { b with on := on }

def stop (b : Beeper) : Beeper := { b with stream := none }

/-- What is logged when the stream fails while it plays. -/
def failure (b : Beeper) (text : String) : List Record :=
  if b.stream.isSome then [⟨.error, "Audio stream error: " ++ text⟩] else []

/-- What the card gets when it asks for samples, if a stream plays. -/
def pull (b : Beeper) (length : Nat) : Option (List Sample) × Beeper :=
  match b.stream with
  | none => (none, b)
  | some s =>
    let (samples, s) := s.fill b.on length
    (some samples, { b with stream := some s })

end Beeper
end Chip8
