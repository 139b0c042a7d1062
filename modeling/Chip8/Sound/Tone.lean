import Chip8.Number.Remainder
import Chip8.Sound.Sample

/-!
# The tone

A sine tone, one value for each frame of a stream. The card asks for buffers of samples, and a switch,
read once for each buffer, says whether the tone is on. Every channel of a frame gets the same sample.
A frame while the tone is off is silence and leaves the clock of the sine where it is.
-/

namespace Chip8
set_option autoImplicit false

structure ToneStream where
  format : SampleFormat
  channels : Nat
  frequency : Float32
  rate : Float32
  /-- Frames of tone so far, modulo the rate. -/
  clock : Float32

namespace ToneStream

def volume : Float32 := .ofBits 0x3E4CCCCD

def pi : Float32 := .ofBits 0x40490FDB

def nextClock (s : ToneStream) : Float32 := remainder32 (s.clock + 1) s.rate

def level (s : ToneStream) : Float32 :=
  (s.clock * s.frequency * 2 * pi / s.rate).sin * volume

def frame (s : ToneStream) (on : Bool) : Sample × ToneStream :=
  if on then
    let s := { s with clock := s.nextClock }
    (.ofFloat32 s.level s.format, s)
  else (.ofFloat32 0 s.format, s)

/-- The samples of a number of frames, one for each frame. -/
def frames (s : ToneStream) (on : Bool) : Nat → List Sample × ToneStream
  | 0 => ([], s)
  | n + 1 =>
    let (sample, s) := s.frame on
    let (samples, s) := s.frames on n
    (sample :: samples, s)

/-- A buffer of `length` samples. The last frame may be cut short but counts as one. -/
def fill (s : ToneStream) (on : Bool) (length : Nat) : List Sample × ToneStream :=
  let (samples, s) := s.frames on ((length + s.channels - 1) / s.channels)
  ((samples.flatMap (List.replicate s.channels)).take length, s)

end ToneStream
end Chip8
