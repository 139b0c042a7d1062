import Mathlib.Algebra.GroupWithZero.Nat
import Chip8.Proofs.Pace

/-!
# What a run pays

Each beat of a pace pays for one period. A run keeps a ledger for each pace: the time between the moment
from which the pace counted at the start and the one from which it counts now is paid for by the beats
in between, as far as it is paid for. What is not paid for is lost, in a pass without a reset: the part
of the time at its reading that is no whole beat, and the time from there until the mark was set.
-/

namespace Chip8
set_option autoImplicit false

variable {σ : Type}

theorem worth_add_le {origin done beats period since now : Nat}
    (hdone : origin + done * period * 1000 ≤ since) (h : since + beats * period * 1000 ≤ now) :
    origin + (done + beats) * period * 1000 ≤ now := by
  calc origin + (done + beats) * period * 1000
      = origin + done * period * 1000 + beats * period * 1000 := by
        rw [Nat.add_mul, Nat.add_mul, Nat.add_assoc]
    _ ≤ since + beats * period * 1000 := Nat.add_le_add_right hdone _
    _ ≤ now := h

theorem worth_add_eq {origin done beats period since now lost rest : Nat}
    (hsince : since = origin + done * period * 1000 + lost)
    (hnow : now = since + beats * period * 1000 + rest) :
    now = origin + (done + beats) * period * 1000 + (lost + rest) := by
  rw [hnow, hsince, Nat.add_mul, Nat.add_mul]
  ac_rfl

namespace Pace

def total (c : Pace) (accounts : List Account) : Nat := (accounts.map c.beats).sum

theorem total_append (c : Pace) (accounts more : List Account) :
    c.total (accounts ++ more) = c.total accounts + c.total more := by
  simp only [total, List.map_append, List.sum_append]

theorem total_singleton (c : Pace) (a : Account) : c.total [a] = c.beats a := by
  simp only [total, List.map_cons, List.map_nil, List.sum_cons, List.sum_nil, Nat.add_zero]

/-- Nanoseconds at a reading in a pass that are not paid for by its beats. -/
def unpaid (c : Pace) (x : Passage σ) (now : Nat) : Nat :=
  now - (c.since x.player + c.beats x.account * c.period x.player * 1000)

/-- Nanoseconds that no later beat pays for when the run goes on after a pass: those that are unpaid at
the reading which let its beats through, and those from there until the mark was set. -/
def lost (c : Pace) (x : Passage σ) : Nat :=
  match c.reading x.account, x.verdict with
  | some now, .goesOn q => c.unpaid x now + (c.since q - now)
  | _, _ => 0

/-- Without a reset, a pass moves on by what its beats pay for and by what is lost. -/
theorem Turn.since_eq {c : Pace} {x : Passage σ} {q : Player} {t t' : Nat}
    (h : c.Turn t t' x.player x.account (c.since q)) (hsince : c.since x.player ≤ t)
    (hq : x.verdict = .goesOn q) (calm : x.account.reset = false) :
    c.since q =
      c.since x.player + c.beats x.account * c.period x.player * 1000 + c.lost x := by
  cases hreading : c.reading x.account with
  | none =>
    rw [beats_eq_zero hreading, Nat.zero_mul, Nat.zero_mul]
    have hlost : c.lost x = 0 := by simp only [lost, hreading]
    rw [hlost]
    cases h with
    | looked look worth =>
      rw [hreading] at look
      generalize c.since q = since at look
      cases look
      rfl
    | restarted reset silent first last =>
      rw [calm] at reset
      cases reset
  | some now =>
    have hlost : c.lost x = c.unpaid x now + (c.since q - now) := by
      simp only [lost, hreading, hq]
    have hpaid := h.worth_le hsince hreading
    have hmark := (h.of_reading hreading).1.reading_le
    rw [hlost, unpaid, ← Nat.add_assoc, Nat.add_sub_of_le hpaid, Nat.add_sub_of_le hmark]

/-- The ledger of a pace before a pass of a run: `origin` is the player at the start and `done` are the
passes that were made. -/
structure Ledger (c : Pace) (valid : σ → Prop) (time : σ → Nat) (origin : Player)
    (done : List (Passage σ)) (p : Player) (r : σ) : Prop where
  valid : valid r
  since_le : c.since p ≤ time r
  period_eq : c.period p = c.period origin
  paid_le : c.since origin + c.total (done.map Passage.account) * c.period origin * 1000 ≤ c.since p
  readings_le : ∀ x ∈ done, ∀ now, c.reading x.account = some now → now ≤ c.since p
  since_eq : (∀ x ∈ done, x.account.reset = false) → c.since p =
    c.since origin + c.total (done.map Passage.account) * c.period origin * 1000 +
      (done.map c.lost).sum

variable {c : Pace} {d : Desktop (StateM σ)} {valid : σ → Prop} {time : σ → Nat} {s : Stage}
variable {p origin : Player} {r : σ} {passes done : List (Passage σ)}

theorem Ledger.start (hr : valid r) (hsince : c.since p ≤ time r) :
    c.Ledger valid time p [] p r where
  valid := hr
  since_le := hsince
  period_eq := rfl
  paid_le := by simp only [total, List.map_nil, List.sum_nil, Nat.zero_mul, Nat.add_zero, Nat.le_refl]
  readings_le := by
    intro x hx
    cases hx
  since_eq := by
    intro _
    simp only [total, List.map_nil, List.sum_nil, Nat.zero_mul, Nat.add_zero]

theorem Ledger.goesOn {x : Passage σ} {q : Player}
    (h : c.Ledger valid time origin done x.player x.desktop) (hd : d.Clocked valid time)
    (hq : x.verdict = .goesOn q)
    (pass : x.player.Passes d s x.desktop x.account (.goesOn q) x.after) :
    c.Ledger valid time origin (done ++ [x]) q x.after := by
  obtain ⟨since, hturn, hgoes⟩ := pass.turn c hd h.valid
  obtain ⟨hsince, hvalid, htime⟩ := hgoes q rfl
  rw [← hsince] at hturn
  obtain ⟨hpaid, hlast⟩ := hturn.advances h.since_le htime
  have hperiod : c.period q = c.period x.player := by
    cases c with
    | ticks => rfl
    | steps => exact pass.period_eq
    | redraws => rfl
  have htotal : c.total ((done ++ [x]).map Passage.account) =
      c.total (done.map Passage.account) + c.beats x.account := by
    rw [List.map_append, List.map_singleton, total_append, total_singleton]
  refine ⟨hvalid, hlast, hperiod.trans h.period_eq, ?_, ?_, ?_⟩
  · rw [h.period_eq] at hpaid
    rw [htotal]
    exact worth_add_le h.paid_le hpaid
  · intro y hy now hnow
    rcases List.mem_append.mp hy with hy | hy
    · exact Nat.le_trans (h.readings_le y hy now hnow) (Nat.le_trans (Nat.le_add_right _ _) hpaid)
    · rw [List.mem_singleton.mp hy] at hnow
      exact (hturn.of_reading hnow).1.reading_le
  · intro calm
    have hearlier := h.since_eq fun y hy => calm y (List.mem_append_left _ hy)
    have hx : x ∈ done ++ [x] := List.mem_append_right _ (List.mem_singleton_self x)
    have hpass := hturn.since_eq h.since_le hq (calm x hx)
    rw [h.period_eq] at hpass
    rw [htotal, List.map_append, List.map_singleton, List.sum_append, List.sum_singleton]
    exact worth_add_eq hearlier hpass

end Pace

theorem History.ledger {d : Desktop (StateM σ)} {valid : σ → Prop} {time : σ → Nat} {s : Stage}
    {p : Player} {r : σ} {passes : List (Passage σ)} (h : History d s p r passes)
    (hd : d.Clocked valid time) (hr : valid r) (c : Pace) (hsince : c.since p ≤ time r)
    {earlier later : List (Passage σ)} {x : Passage σ} (hsplit : passes = earlier ++ x :: later) :
    c.Ledger valid time p earlier x.player x.desktop ∧
      x.player.Passes d s x.desktop x.account x.verdict x.after := by
  have hstart : c.Ledger valid time p [] p r := .start hr hsince
  exact h.before hstart (fun done x q ledger hq pass => ledger.goesOn hd hq pass) hsplit

end Chip8
