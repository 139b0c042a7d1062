/-!
# Samples

The formats in which a sound card takes samples, and the sample of each format for a value between -1
and 1. The formats of 64-bit integers have a name and no samples.
-/

namespace Chip8
set_option autoImplicit false

inductive SampleFormat where
  | i8 | i16 | i32 | i64
  | u8 | u16 | u32 | u64
  | f32 | f64
  deriving DecidableEq, Repr

namespace SampleFormat

def name : SampleFormat → String
  | i8 => "i8"
  | i16 => "i16"
  | i32 => "i32"
  | i64 => "i64"
  | u8 => "u8"
  | u16 => "u16"
  | u32 => "u32"
  | u64 => "u64"
  | f32 => "f32"
  | f64 => "f64"

def label (f : SampleFormat) : String := f.name.map Char.toUpper

def isSupported : SampleFormat → Bool
  | i64 | u64 => false
  | _ => true

end SampleFormat

inductive Sample where
  | integer (value : Int)
  | single (value : Float32)
  | double (value : Float)

namespace Sample

/-- The sample of a value. An integer format spreads the values from -1 to 1 over its range, cutting
towards the middle; without a sign, the middle is half the range. -/
def ofFloat32 (s : Float32) : SampleFormat → Sample
  | .i8 => integer (s * 128).toInt8.toInt
  | .i16 => integer (s * 32768).toInt16.toInt
  | .i32 => integer (s * 2147483648).toInt32.toInt
  | .u8 => integer ((s * 128).toInt8.toInt + 128)
  | .u16 => integer ((s * 32768).toInt16.toInt + 32768)
  | .u32 => integer ((s * 2147483648).toInt32.toInt + 2147483648)
  | .f32 => single s
  | .f64 => double s.toFloat
  | .i64 | .u64 => integer 0

end Sample
end Chip8
