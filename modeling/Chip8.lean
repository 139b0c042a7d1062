import Chip8.Main
import Chip8.Player.Rehearsal
import Chip8.Proofs.Effects
import Chip8.Proofs.Operands
import Chip8.Proofs.Session
import Chip8.Proofs.WellFormed
import Chip8.Proofs.Checked
import Chip8.Proofs.Faultless
import Chip8.Proofs.Subroutine
import Chip8.Proofs.Passes
import Chip8.Proofs.Presses
import Chip8.Proofs.History
import Chip8.Proofs.Pace
import Chip8.Proofs.NeverAhead
import Chip8.Proofs.Drift
import Chip8.Proofs.Picture
import Chip8.Proofs.Restart
import Chip8.Proofs.Footprint
import Chip8.Proofs.ReturnList
import Chip8.Proofs.Sounding
import Chip8.Proofs.Timekeeping
import Chip8.Proofs.Randomness
import Chip8.Proofs.Waiting
import Chip8.Proofs.Polling
import Chip8.Proofs.LatestWrite
import Chip8.Proofs.IndexBits
import Chip8.Proofs.Untouched
import Chip8.Proofs.ScreenMark
import Chip8.Proofs.Remarks
import Chip8.Proofs.Reporting
import Chip8.Proofs.RomSize
import Chip8.Proofs.Sprites
import Chip8.Proofs.Transfers
import Chip8.Proofs.ExactResults
import Chip8.Proofs.Overlays
import Chip8.Proofs.Redrawing
import Chip8.Proofs.DecimalDigits
import Chip8.Proofs.Encoding
import Chip8.Proofs.Assembly
import Chip8.Proofs.Rounding
import Chip8.Proofs.FloatPatterns
import Chip8.Proofs.Judgement
import Chip8.Proofs.ToneSetting
import Chip8.Proofs.Numerals
import Chip8.Proofs.Spellings
import Chip8.Proofs.Buffers
import Chip8.Proofs.Pixels
import Chip8.Proofs.StepRate
import Chip8.Proofs.Glyphs
