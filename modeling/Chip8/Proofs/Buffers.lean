import Chip8.Sound.Beeper
import Mathlib.Algebra.Order.Floor.Div

/-!
# Buffers of tone

A card asks for the tone in buffers of any length. The frames of all buffers are one sequence, and what a frame sounds
like follows from the switch at each frame up to it: how the sequence is cut into buffers makes no difference, except
that a frame cut short is not taken up again in the next buffer. The numbers of the sine are not looked at.
-/

namespace Chip8
set_option autoImplicit false

namespace ToneStream

/-- What a card asks for: a buffer of some length, and the switch as it is read for it. -/
structure Request where
  on : Bool
  length : Nat

/-- The buffers for one request after the other, and the stream after them. -/
def answer (s : ToneStream) : List Request → List (List Sample) × ToneStream
  | [] => ([], s)
  | r :: rs =>
    let (buffer, s) := s.fill r.on r.length
    let (buffers, s) := s.answer rs
    (buffer :: buffers, s)

/-- The switch at each frame of all buffers, where the last frame of a buffer may be short. -/
def switches (channels : Nat) (rs : List Request) : List Bool :=
  rs.flatMap fun r => List.replicate (r.length ⌈/⌉ channels) r.on

def advance (s : ToneStream) : ToneStream := { s with clock := s.nextClock }

/-- The sample of a frame that is the `m`th with the tone on, or of a silent one. -/
def sampleAt (s : ToneStream) (on : Bool) (m : Nat) : Sample :=
  .ofFloat32 (if on then (advance^[m] s).level else 0) s.format

def play (s : ToneStream) : List Bool → List Sample × ToneStream
  | [] => ([], s)
  | on :: switches =>
    let (sample, s) := s.frame on
    let (samples, s) := s.play switches
    (sample :: samples, s)

section Advance
variable (s : ToneStream) (m : Nat)

theorem advances_channels : (advance^[m] s).channels = s.channels := by
  induction m generalizing s with
  | zero => rfl
  | succ m ih => exact ih s.advance

end Advance

section Play
variable (s : ToneStream) (switches more : List Bool)

theorem frames_eq_play (on : Bool) (n : Nat) : s.frames on n = s.play (List.replicate n on) := by
  induction n generalizing s with
  | zero => rfl
  | succ n ih => simp only [frames, ih, List.replicate_succ, play]

theorem play_length : (s.play switches).1.length = switches.length := by
  induction switches generalizing s with
  | nil => rfl
  | cons on switches ih => simp only [play, List.length_cons, ih]

theorem play_append : s.play (switches ++ more) =
    ((s.play switches).1 ++ ((s.play switches).2.play more).1, ((s.play switches).2.play more).2) := by
  induction switches generalizing s with
  | nil => rfl
  | cons on switches ih => simp only [play, List.cons_append, ih]

theorem play_stream : (s.play switches).2 = advance^[switches.count true] s := by
  induction switches generalizing s with
  | nil => rfl
  | cons on switches ih =>
    cases on with
    | true => exact (ih s.advance).trans (by rw [List.count_cons_self, Function.iterate_succ_apply])
    | false => exact (ih s).trans (by rw [List.count_cons_of_ne Bool.false_ne_true])

theorem play_sample {k : Nat} (hk : k < switches.length) :
    (s.play switches).1[k]? = some (s.sampleAt switches[k] ((switches.take (k + 1)).count true)) := by
  induction switches generalizing s k with
  | nil => exact absurd hk (Nat.not_lt_zero k)
  | cons on switches ih =>
    cases k with
    | zero => cases on <;> rfl
    | succ k =>
      have hrest := ih (s := (s.frame on).2) (Nat.lt_of_succ_lt_succ hk)
      refine hrest.trans (congrArg some ?_)
      cases on with
      | true =>
        rw [List.take_succ_cons, List.count_cons_self]
        rfl
      | false =>
        rw [List.take_succ_cons, List.count_cons_of_ne Bool.false_ne_true]
        rfl

theorem play_channels : (s.play switches).2.channels = s.channels := by
  rw [play_stream, advances_channels]

end Play

theorem repeated_getElem? {α : Type} (xs : List α) {c : Nat} (hc : 0 < c) (i : Nat) :
    (xs.flatMap (List.replicate c))[i]? = xs[i / c]? := by
  induction xs generalizing i with
  | nil => rfl
  | cons x xs ih =>
    rw [List.flatMap_cons]
    rcases Nat.lt_or_ge i c with hi | hi
    · rw [List.getElem?_append_left (by rwa [List.length_replicate]), List.getElem?_replicate_of_lt hi,
        Nat.div_eq_of_lt hi, List.getElem?_cons_zero]
    · have hquotient : i / c = (i - c) / c + 1 := Nat.div_eq_sub_div hc hi
      rw [List.getElem?_append_right (by rwa [List.length_replicate]), List.length_replicate, ih, hquotient,
        List.getElem?_cons_succ]

section Fill
variable (s : ToneStream) (on : Bool) (length : Nat)

theorem fill_samples : (s.fill on length).1 =
    ((s.play (List.replicate (length ⌈/⌉ s.channels) on)).1.flatMap (List.replicate s.channels)).take length := by
  rw [Nat.ceilDiv_eq_add_pred_div]
  unfold fill
  simp only [frames_eq_play, play_channels]

theorem fill_stream :
    (s.fill on length).2 = (s.play (List.replicate (length ⌈/⌉ s.channels) on)).2 := by
  rw [← frames_eq_play]
  rfl

theorem fill_silent : (s.fill false length).2 = s := by
  rw [fill_stream, play_stream, List.count_replicate, if_neg (by decide), Function.iterate_zero_apply]

variable {s on length} (hchannels : 0 < s.channels)
include hchannels

theorem fill_length : (s.fill on length).1.length = length := by
  have henough : length ≤ s.channels * (length ⌈/⌉ s.channels) := le_smul_ceilDiv hchannels
  rw [fill_samples, List.length_take, List.length_flatMap]
  simp [play_length]
  rw [Nat.mul_comm]
  exact henough

theorem fill_getElem? {i : Nat} (hi : i < length) : (s.fill on length).1[i]? =
    (s.play (List.replicate (length ⌈/⌉ s.channels) on)).1[i / s.channels]? := by
  rw [fill_samples, List.getElem?_take_of_lt hi, repeated_getElem? _ hchannels]

theorem frame_lt {i : Nat} (hi : i < length) : i / s.channels < length ⌈/⌉ s.channels := by
  have henough : length ≤ s.channels * (length ⌈/⌉ s.channels) := le_smul_ceilDiv hchannels
  exact Nat.div_lt_of_lt_mul (Nat.lt_of_lt_of_le hi henough)

theorem whole_ceilDiv (frames : Nat) : (frames * s.channels) ⌈/⌉ s.channels = frames := by
  rw [Nat.mul_comm]
  exact smul_ceilDiv hchannels frames

theorem add_ceilDiv (frames : Nat) :
    (frames * s.channels + length) ⌈/⌉ s.channels = frames + length ⌈/⌉ s.channels := by
  have hsum : frames * s.channels + length + s.channels - 1 =
      frames * s.channels + (length + s.channels - 1) := by omega
  rw [Nat.ceilDiv_eq_add_pred_div, Nat.ceilDiv_eq_add_pred_div, hsum, Nat.mul_comm,
    Nat.mul_add_div hchannels]

/-- A buffer cut between two frames is two buffers. -/
theorem fill_add (frames : Nat) : s.fill on (frames * s.channels + length) =
    ((s.fill on (frames * s.channels)).1 ++ ((s.fill on (frames * s.channels)).2.fill on length).1,
      ((s.fill on (frames * s.channels)).2.fill on length).2) := by
  have hchannels' : (s.play (List.replicate frames on)).2.channels = s.channels := s.play_channels _
  have hhead : ((s.play (List.replicate frames on)).1.flatMap (List.replicate s.channels)).length =
      frames * s.channels := by
    simp [play_length]
  apply Prod.ext
  · rw [fill_stream, whole_ceilDiv hchannels, fill_samples, fill_samples, fill_samples, whole_ceilDiv hchannels,
      add_ceilDiv hchannels, List.replicate_add, play_append, List.flatMap_append, hchannels',
      List.take_of_length_le (Nat.le_of_eq hhead), ← hhead, List.take_length_add_append]
  · rw [fill_stream, fill_stream, fill_stream, whole_ceilDiv hchannels, hchannels', add_ceilDiv hchannels,
      List.replicate_add, play_append]

end Fill

section Answer
variable {s : ToneStream} {rs : List Request}

theorem answer_length : (s.answer rs).1.length = rs.length := by
  induction rs generalizing s with
  | nil => rfl
  | cons r rs ih => simp only [answer, List.length_cons, ih]

theorem answer_append (more : List Request) : s.answer (rs ++ more) =
    ((s.answer rs).1 ++ ((s.answer rs).2.answer more).1, ((s.answer rs).2.answer more).2) := by
  induction rs generalizing s with
  | nil => rfl
  | cons r rs ih => simp only [answer, List.cons_append, ih]

theorem answer_stream : (s.answer rs).2 = (s.play (switches s.channels rs)).2 := by
  induction rs generalizing s with
  | nil => rfl
  | cons r rs ih =>
    have hchannels : (s.fill r.on r.length).2.channels = s.channels := by
      rw [fill_stream, play_channels]
    refine (ih (s := (s.fill r.on r.length).2)).trans ?_
    rw [hchannels, fill_stream]
    exact (congrArg Prod.snd (play_append s _ _)).symm

theorem answer_getElem? {j : Nat} {r : Request} (hj : rs[j]? = some r) : (s.answer rs).1[j]? =
    some ((s.play (switches s.channels (rs.take j))).2.fill r.on r.length).1 := by
  induction rs generalizing s j with
  | nil => contradiction
  | cons first rs ih =>
    cases j with
    | zero =>
      obtain rfl : first = r := Option.some.inj hj
      rfl
    | succ j =>
      have hrest := ih (s := (s.fill first.on first.length).2) hj
      have hchannels : (s.fill first.on first.length).2.channels = s.channels := by
        rw [fill_stream, play_channels]
      have hsplit : switches s.channels ((first :: rs).take (j + 1)) =
          List.replicate (first.length ⌈/⌉ s.channels) first.on ++ switches s.channels (rs.take j) := rfl
      rw [hsplit, play_append, ← fill_stream, ← hchannels]
      exact hrest

/-- Every entry of a buffer has the sample of its frame, whatever the buffers before it. -/
theorem answer_sample (hchannels : 0 < s.channels) {j : Nat} {r : Request} (hj : rs[j]? = some r) :
    ∃ buffer, (s.answer rs).1[j]? = some buffer ∧ buffer.length = r.length ∧
      ∀ i < r.length, buffer[i]? = some (s.sampleAt r.on (((switches s.channels rs).take
        ((switches s.channels (rs.take j)).length + i / s.channels + 1)).count true)) := by
  have hstream : (s.play (switches s.channels (rs.take j))).2.channels = s.channels := s.play_channels _
  have hpositive : 0 < (s.play (switches s.channels (rs.take j))).2.channels := hstream.symm ▸ hchannels
  have hsplit : switches s.channels rs = switches s.channels (rs.take j) ++
      List.replicate (r.length ⌈/⌉ s.channels) r.on ++ switches s.channels (rs.drop (j + 1)) := by
    obtain ⟨hlt, rfl⟩ := List.getElem?_eq_some_iff.mp hj
    have hrs : rs = rs.take j ++ rs[j] :: rs.drop (j + 1) := by
      rw [← List.drop_eq_getElem_cons hlt, List.take_append_drop]
    rw [List.append_assoc]
    exact (congrArg (switches s.channels) hrs).trans List.flatMap_append
  refine ⟨_, answer_getElem? hj, fill_length hpositive, ?_⟩
  intro i hi
  have hframe := frame_lt hchannels hi
  have hlater : (switches s.channels (rs.take j)).length + i / s.channels <
      (switches s.channels (rs.take j) ++ List.replicate (r.length ⌈/⌉ s.channels) r.on).length := by
    rw [List.length_append, List.length_replicate]
    exact Nat.add_lt_add_left hframe _
  have hsample := play_sample s _ hlater
  rw [play_append, List.getElem?_append_right (by rw [play_length]; exact Nat.le_add_right _ _), play_length,
    Nat.add_sub_cancel_left, List.getElem_append_right (Nat.le_add_right _ _), List.getElem_replicate] at hsample
  rw [fill_getElem? hpositive hi, hstream, hsample, hsplit, List.take_append_of_le_length hlater]

end Answer
end ToneStream

namespace Beeper

/-- What happens to a beeper while it plays: it is switched on or off, or the card asks for a buffer. -/
inductive Operation where
  | switch (on : Bool)
  | pull (length : Nat)

def pulled (b : Beeper) : List Operation → List (List Sample)
  | [] => []
  | .switch on :: ops => (b.setActive on).pulled ops
  | .pull length :: ops => (b.pull length).1.toList ++ (b.pull length).2.pulled ops

/-- What the card asks for, with the switch as it was set last. -/
def requests (on : Bool) : List Operation → List ToneStream.Request
  | [] => []
  | .switch on :: ops => requests on ops
  | .pull length :: ops => ⟨on, length⟩ :: requests on ops

theorem pulled_eq_answer (on : Bool) (s : ToneStream) (ops : List Operation) :
    pulled ⟨on, some s⟩ ops = (s.answer (requests on ops)).1 := by
  induction ops generalizing on s with
  | nil => rfl
  | cons op ops ih =>
    cases op with
    | switch on' => exact ih on' s
    | pull length => exact congrArg _ (ih on (s.fill on length).2)

theorem start_eq_ok {frequency : Float32} {card : SoundCard} {b : Beeper} {records : List Record}
    (h : start frequency (some card) = .ok (b, records)) :
    b = ⟨false, some ⟨card.format, card.channels, frequency, card.rate.toFloat32, 0⟩⟩ := by
  unfold start openStream at h
  dsimp only at h
  split at h
  · contradiction
  · split at h
    · contradiction
    · split at h
      · contradiction
      · contradiction
      · exact (Prod.mk.inj (Except.ok.inj h)).1.symm

end Beeper

open ToneStream in
/-- A beeper on a card with a channel or more. The frames of all buffers that the card asks for are numbered through,
whatever their lengths. Every entry of a frame is the silent sample if the switch was off for its buffer, and else the
sine after as many advances of the clock as there were frames with the switch on up to this one. Cutting a buffer
between two frames changes nothing, and silence leaves the clock where it is. -/
theorem frames_numbered_through {frequency : Float32} {card : SoundCard} {b : Beeper} {records : List Record}
    (h : Beeper.start frequency (some card) = .ok (b, records)) (hchannels : 0 < card.channels) :
    let s : ToneStream := ⟨card.format, card.channels, frequency, card.rate.toFloat32, 0⟩
    (∀ ops, b.pulled ops = (s.answer (Beeper.requests false ops)).1) ∧
    (∀ rs, (s.answer rs).1.length = rs.length ∧ ∀ j r, rs[j]? = some r →
      ∃ buffer, (s.answer rs).1[j]? = some buffer ∧ buffer.length = r.length ∧
        ∀ i < r.length, buffer[i]? = some (s.sampleAt r.on (((switches card.channels rs).take
          ((switches card.channels (rs.take j)).length + i / card.channels + 1)).count true))) ∧
    (∀ before after on frames length,
      (s.answer (before ++ ⟨on, frames * card.channels + length⟩ :: after)).1.flatten =
        (s.answer (before ++ ⟨on, frames * card.channels⟩ :: ⟨on, length⟩ :: after)).1.flatten) ∧
    ∀ rs length, (s.answer (rs ++ [⟨false, length⟩])).2 = (s.answer rs).2 := by
  intro s
  refine ⟨?_, ?_, ?_, ?_⟩
  · intro ops
    rw [Beeper.start_eq_ok h]
    exact Beeper.pulled_eq_answer false s ops
  · intro rs
    exact ⟨answer_length, fun j r hj => answer_sample hchannels hj⟩
  · intro before after on frames length
    have hkept : (s.answer before).2.channels = card.channels := by
      rw [answer_stream, play_channels]
    have hpositive : 0 < (s.answer before).2.channels := hkept.symm ▸ hchannels
    have hcut : (s.answer before).2.fill on (frames * (s.answer before).2.channels + length) = _ :=
      fill_add hpositive frames
    rw [hkept] at hcut
    rw [answer_append, answer_append]
    simp only [answer, hcut, List.flatten_append, List.flatten_cons, List.append_assoc]
  · intro rs length
    rw [answer_append]
    exact fill_silent _ length

/-- Two channels, so that buffers of odd length end in a short frame. -/
def stereo : SoundCard where
  format := .i16
  rate := 8000
  channels := 2
  name := none
  configFailure := none
  buildFailure := none
  playFailure := none

/-- Eight frames: two silent ones, two with the tone, a silent one, and three with the tone. -/
def blinking : List Beeper.Operation :=
  [.pull 3, .switch true, .pull 3, .switch false, .pull 1, .switch true, .pull 5]

theorem frames_numbered_through_of_blinking :
    ∃ b records, Beeper.start 440 (some stereo) = .ok (b, records) ∧ 0 < stereo.channels ∧
      let s : ToneStream := ⟨.i16, 2, 440, stereo.rate.toFloat32, 0⟩
      (∃ buffer, (b.pulled blinking)[2]? = some buffer ∧ buffer.length = 1 ∧
        buffer[0]? = some (.ofFloat32 0 .i16)) ∧
      ∃ buffer, (b.pulled blinking)[3]? = some buffer ∧ buffer.length = 5 ∧
        buffer[1]? = some (.ofFloat32 (ToneStream.advance^[3] s).level .i16) ∧
        buffer[4]? = some (.ofFloat32 (ToneStream.advance^[5] s).level .i16) := by
  have hstart : ∃ b records, Beeper.start 440 (some stereo) = .ok (b, records) := ⟨_, _, rfl⟩
  obtain ⟨b, records, hb⟩ := hstart
  obtain ⟨hpulled, hsamples, _⟩ := frames_numbered_through hb (by decide)
  obtain ⟨_, hbuffers⟩ := hsamples (Beeper.requests false blinking)
  obtain ⟨silent, hsilent, hshort, hzero⟩ := hbuffers 2 ⟨false, 1⟩ rfl
  obtain ⟨tone, htone, hlong, hsine⟩ := hbuffers 3 ⟨true, 5⟩ rfl
  rw [← hpulled] at hsilent htone
  exact ⟨b, records, hb, by decide, ⟨silent, hsilent, hshort, hzero 0 (by decide)⟩, tone, htone, hlong,
    hsine 1 (by decide), hsine 4 (by decide)⟩

end Chip8
