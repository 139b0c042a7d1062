import Chip8.Proofs.Footprint
import Chip8.Proofs.Restart

/-!
# Random bytes

What a session has from the stream of random bytes. Only the instruction that draws a byte uses one: the
first one executed the first byte, the next one the next byte, across resets and whatever the mask is. A
byte goes through its mask before anything sees it, so two streams that agree under the masks in use lead
through the same states, with the same keys asked about and the same reports.
-/

namespace Chip8
set_option autoImplicit false

namespace Machine

/-- The mask of the random byte that the next step draws. -/
def mask (m : Machine) : Option UInt8 :=
  match m.upcoming with
  | some (.random _ kk) => some kk
  | _ => none

variable {m : Machine} {random random' : RandomBytes}

theorem mask_eq_some {kk : UInt8} :
    m.mask = some kk ↔ ∃ x, m.upcoming = some (.random x kk) := by
  unfold mask
  split
  · rename_i x kk' hi
    simp [hi]
  · rename_i hi
    constructor
    · simp
    · rintro ⟨x, hx⟩
      exact absurd hx (hi x kk)

theorem mask_eq_none : m.mask = none ↔ ∀ x kk, m.upcoming ≠ some (.random x kk) := by
  rw [Option.eq_none_iff_forall_ne_some]
  constructor
  · intro h x kk hi
    exact h kk (mask_eq_some.mpr ⟨x, hi⟩)
  · intro h kk hk
    obtain ⟨x, hi⟩ := mask_eq_some.mp hk
    exact h x kk hi

theorem draws_not_mem_writes {i : Instruction} (h : ∀ x kk, i ≠ .random x kk) (index : UInt16) :
    .draws ∉ i.writes index := by
  cases i with
  | random x kk => exact absurd rfl (h x kk)
  | _ => simp [Instruction.writes, Part.v, Part.byte]

theorem execute_congr {i : Instruction} (h : ∀ x kk, i ≠ .random x kk) (m : Machine) (keys : Keys)
    (random random' : RandomBytes) : m.execute keys random i = m.execute keys random' i := by
  cases i with
  | random x kk => exact absurd rfl (h x kk)
  | _ => rfl

/-- A byte that is drawn goes under its mask into the register. -/
theorem step_random {x kk : UInt8} (h : m.upcoming = some (.random x kk)) (keys : Keys)
    (random : RandomBytes) : m.step keys random =
      { machine := { m with
          pc := next m.pc, v := m.v.set x (random m.draws &&& kk), draws := m.draws + 1 }
        events := [.fetched m.pc (m.memory.word m.pc)] } := by
  rw [step_upcoming keys random h]
  rfl

theorem step_draws (m : Machine) (keys : Keys) (random : RandomBytes) :
    (m.step keys random).machine.draws = m.draws + if m.mask.isSome then 1 else 0 := by
  cases hmask : m.mask with
  | some kk =>
    obtain ⟨x, hi⟩ := mask_eq_some.mp hmask
    rw [step_random hi]
    rfl
  | none =>
    have hnone := mask_eq_none.mp hmask
    have hsame : Part.draws.Same m (m.step keys random).machine := by
      apply step_same_of_upcoming
      · simp
      · simp
      · simp [Part.v]
      · intro i hi
        apply draws_not_mem_writes
        rintro x kk rfl
        exact hnone x kk hi
    exact hsame

/-- The stream under the mask of the next step is all that the step sees of it. -/
theorem step_congr (h : ∀ kk, m.mask = some kk → random' m.draws &&& kk = random m.draws &&& kk)
    (keys : Keys) : m.step keys random' = m.step keys random := by
  cases hi : m.upcoming with
  | none =>
    cases hw : m.keyWait with
    | some x => rw [step_waiting keys random hw, step_waiting keys random' hw]
    | none => simp [upcoming, hw] at hi
  | some i =>
    by_cases hrandom : ∃ x kk, i = .random x kk
    · obtain ⟨x, kk, rfl⟩ := hrandom
      rw [step_random hi, step_random hi, h kk (mask_eq_some.mpr ⟨x, hi⟩)]
    · have hi' : ∀ x kk, i ≠ .random x kk := fun x kk he => hrandom ⟨x, kk, he⟩
      rw [step_upcoming keys random' hi, step_upcoming keys random hi,
        execute_congr hi' _ keys random' random]

end Machine

namespace Emulator

namespace Moment

def mask (x : Moment) : Option UInt8 :=
  match x.op with
  | .step _ => x.emulator.machine.mask
  | _ => none

def drawing (xs : List Moment) : List Moment := xs.filter fun x => x.mask.isSome

theorem mask_eq_some {x : Moment} {kk : UInt8} : x.mask = some kk ↔
    ∃ keys r, x.op = .step keys ∧ x.emulator.machine.upcoming = some (.random r kk) := by
  rcases x with ⟨e, op⟩
  cases op with
  | step keys => simp [mask, Machine.mask_eq_some]
  | _ => simp [mask]

end Moment

variable {e : Emulator} {random random' : RandomBytes}

theorem perform_draws {e' : Emulator} {op : Operation} (h : e.perform random op = .ok e') :
    e'.machine.draws = e.machine.draws + if (Moment.mask ⟨e, op⟩).isSome then 1 else 0 := by
  obtain ⟨memory, hmachine⟩ := perform_machine h
  rw [hmachine]
  cases op with
  | step keys => exact e.machine.step_draws keys random
  | _ => rfl

/-- As many bytes were drawn as moments draw one, and each of them drew the byte of its number. -/
structure Counted (draws : Nat) (xs : List Moment) (e : Emulator) : Prop where
  draws_eq : e.machine.draws = draws + (Moment.drawing xs).length
  number_eq : ∀ j x, (Moment.drawing xs)[j]? = some x → x.emulator.machine.draws = draws + j

theorem Counted.perform {draws : Nat} {xs : List Moment} {e' : Emulator} {op : Operation}
    (h : Counted draws xs e) (hop : e.perform random op = .ok e') :
    Counted draws (xs ++ [⟨e, op⟩]) e' := by
  have hdraws := perform_draws hop
  rw [h.draws_eq] at hdraws
  by_cases hmask : (Moment.mask ⟨e, op⟩).isSome = true
  · have hdrawing : Moment.drawing (xs ++ [⟨e, op⟩]) = Moment.drawing xs ++ [⟨e, op⟩] := by
      simp [Moment.drawing, hmask]
    constructor
    · rw [hdraws, hdrawing, if_pos hmask, List.length_append, Nat.add_assoc]
      rfl
    · intro j x hx
      rw [hdrawing, List.getElem?_append] at hx
      split at hx
      · exact h.number_eq j x hx
      · rename_i hlast
        rw [List.getElem?_singleton] at hx
        split at hx
        · obtain rfl := Option.some.inj hx
          rw [h.draws_eq]
          omega
        · simp at hx
  · have hdrawing : Moment.drawing (xs ++ [⟨e, op⟩]) = Moment.drawing xs := by
      simp [Moment.drawing, hmask]
    constructor
    · rw [hdraws, hdrawing, if_neg hmask]
      rfl
    · rw [hdrawing]
      exact h.number_eq

theorem perform_congr {op : Operation} (h : ∀ kk, Moment.mask ⟨e, op⟩ = some kk →
    random' e.machine.draws &&& kk = random e.machine.draws &&& kk) :
    e.perform random' op = e.perform random op ∧ e.reports random' op = e.reports random op := by
  cases op with
  | step keys =>
    have hstep : e.machine.step keys random' = e.machine.step keys random :=
      Machine.step_congr h keys
    simp only [perform, reports, step, hstep, and_self]
  | _ => simp only [perform, reports, and_self]

/-- The emulator that each operation of a session is made on, the keys that the operation asks about and
the events that it reports. -/
def transcript (random : RandomBytes) (e : Emulator) (ops : List Operation) :
    List (Emulator × List UInt8 × List Event) :=
  (e.moments random ops).map fun x => (x.emulator, x.emulator.reports random x.op)

theorem session_congr {ops : List Operation}
    (h : ∀ x ∈ e.moments random ops, ∀ kk, x.mask = some kk →
      random' x.emulator.machine.draws &&& kk = random x.emulator.machine.draws &&& kk) :
    e.transcript random' ops = e.transcript random ops ∧
      e.after random' ops = e.after random ops := by
  induction ops generalizing e with
  | nil =>
    simp only [transcript, moments, after, List.map_nil, and_self]
  | cons op ops ih =>
    rw [moments, List.forall_mem_cons] at h
    obtain ⟨hfirst, hrest⟩ := h
    obtain ⟨hperform, hreports⟩ := perform_congr hfirst
    simp only [transcript, moments, after, List.map_cons, hperform, hreports, List.cons.injEq, true_and]
    cases hop : e.perform random op with
    | error cause => simp only [List.map_nil, and_self]
    | ok e' =>
      rw [hop] at hrest
      exact ih hrest

end Emulator

/-- In every session as many random bytes are drawn as CXKK is executed, and the byte of each number goes,
under its mask, into the register of the CXKK of that number. A stream that agrees with the first one under
these masks leads through the same states, with the same keys asked about and the same reports. -/
theorem bytes_seen_through_masks {rom : Rom} {draws : Nat} {e : Emulator} {events : List Event}
    (h : Emulator.start rom draws = .ok (e, events)) (random : RandomBytes)
    (ops : List Emulator.Operation) :
    let drawing := Emulator.Moment.drawing (e.moments random ops)
    (∃ e', e.after random ops = .ok e' ∧ e'.machine.draws = draws + drawing.length) ∧
    (∀ j x, drawing[j]? = some x → ∃ keys r kk, x.op = .step keys ∧
      x.emulator.machine.upcoming = some (.random r kk) ∧
      x.emulator.machine.draws = draws + j ∧
      (x.emulator.step keys random).1.machine.v =
        x.emulator.machine.v.set r (random (draws + j) &&& kk)) ∧
    ∀ random', (∀ j x kk, drawing[j]? = some x → x.mask = some kk →
        random' (draws + j) &&& kk = random (draws + j) &&& kk) →
      e.transcript random' ops = e.transcript random ops ∧
        e.after random' ops = e.after random ops := by
  intro drawing
  obtain ⟨memory, hload, rfl, _⟩ := Emulator.start_eq_ok h
  have hstart : Emulator.Counted draws [] ⟨.start memory draws, rom, true⟩ := by
    refine ⟨rfl, ?_⟩
    intro j x hx
    simp [Emulator.Moment.drawing] at hx
  obtain ⟨e', hafter, hcounted⟩ := Emulator.moments_keep random
    (fun xs e op e' hcounted hop => hcounted.perform hop) hload hstart ops
  refine ⟨⟨e', hafter, hcounted.draws_eq⟩, ?_, ?_⟩
  · intro j x hx
    have hdrawn : x ∈ drawing := List.mem_of_getElem? hx
    obtain ⟨kk, hkk⟩ := Option.isSome_iff_exists.mp (List.mem_filter.mp hdrawn).2
    obtain ⟨keys, r, hop, hi⟩ := Emulator.Moment.mask_eq_some.mp hkk
    refine ⟨keys, r, kk, hop, hi, hcounted.number_eq j x hx, ?_⟩
    simp only [Emulator.step, Machine.step_random hi, hcounted.number_eq j x hx]
  · intro random' hagree
    apply Emulator.session_congr
    intro x hx kk hkk
    have hdrawn : x ∈ drawing := List.mem_filter.mpr ⟨hx, Option.isSome_iff_exists.mpr ⟨kk, hkk⟩⟩
    obtain ⟨j, hj⟩ := List.mem_iff_getElem?.mp hdrawn
    rw [hcounted.number_eq j x hj]
    exact hagree j x kk hj hkk

/-- The ROM draws a byte under an empty mask and one under a mask of four bits, again and again. -/
def rolling : Rom := #[0xC0, 0x00, 0xC1, 0x0F, 0x12, 0x00]

def rollingSession : List Emulator.Operation :=
  let step := .step fun _ => false
  [step, step, .tick, step, step, .reset, step, step]

def rolled : RandomBytes := fun j => UInt8.ofNat (7 * j + 3)

/-- Has the bits of `rolled` under the masks in use, and no others. -/
def rerolled : RandomBytes := fun j => rolled j ^^^ if j = 1 ∨ j = 4 then 0xF0 else 0xFF

theorem rolling_masks {e : Emulator} {events : List Event}
    (h : Emulator.start rolling 0 = .ok (e, events)) :
    (Emulator.Moment.drawing (e.moments rolled rollingSession)).map Emulator.Moment.mask =
      [some 0, some 0xF, some 0, some 0, some 0xF] := by
  have hmasks : (Emulator.start rolling 0).toOption.map (fun started =>
      (Emulator.Moment.drawing (started.1.moments rolled rollingSession)).map Emulator.Moment.mask) =
      some [some 0, some 0xF, some 0, some 0, some 0xF] := by decide +kernel
  rw [h] at hmasks
  exact Option.some.inj hmasks

theorem bytes_seen_through_masks_of_rolling :
    ∃ e events, Emulator.start rolling 0 = .ok (e, events) ∧
      (∃ e', e.after rolled rollingSession = .ok e' ∧ e'.machine.draws =
        0 + (Emulator.Moment.drawing (e.moments rolled rollingSession)).length) ∧
      (Emulator.Moment.drawing (e.moments rolled rollingSession)).length = 5 ∧
      e.transcript rerolled rollingSession = e.transcript rolled rollingSession ∧
      e.after rerolled rollingSession = e.after rolled rollingSession := by
  have hstart : ∃ e events, Emulator.start rolling 0 = .ok (e, events) := ⟨_, _, rfl⟩
  obtain ⟨e, events, he⟩ := hstart
  have hmasks := rolling_masks he
  obtain ⟨hcount, _, hagree⟩ := bytes_seen_through_masks he rolled rollingSession
  refine ⟨e, events, he, hcount, ?_, hagree rerolled ?_⟩
  · simpa using congrArg List.length hmasks
  · intro j x kk hx hkk
    have hmask := congrArg (fun masks => masks[j]?) hmasks
    simp only [List.getElem?_map, hx, Option.map_some, hkk] at hmask
    rcases j with _ | _ | _ | _ | _ | j
    all_goals simp at hmask
    all_goals subst hmask
    all_goals decide

end Chip8
