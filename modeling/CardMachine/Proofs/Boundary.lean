import CardMachine.Tick
import Mathlib.Order.Bounds.Basic

/-!
# Runs up to a boundary

A run up to a boundary is made of plain ticks, stopped after the first one that hits the boundary or at
the limit. `RunsUntil` says so by counting: `afterTicks` is the state after so many ticks, `HitAt` tells
whether the tick of a given number hits, and the length of a run is the least such number.

Both the count and the split of a run in two come from one equation, `runUntil_succ`: a run is its first
tick followed, unless that tick hit the boundary, by the run that has one tick less (`Run.goOn`).
-/

namespace CardMachine

variable {β : Type} [Provider β]

namespace Machine

/-- The machine and its peripherals after `j` ticks. -/
def afterTicks (config : Config) (m : Machine) (devices : β) : Nat → Machine × β
  | 0 => (m, devices)
  | j + 1 =>
    let before := m.afterTicks config devices j
    let turn := before.1.tick config before.2
    (turn.machine, turn.devices)

/-- The tick with `j` others before it. -/
def tickAfter (config : Config) (m : Machine) (devices : β) (j : Nat) : Turn TickOutcome β :=
  let before := m.afterTicks config devices j
  before.1.tick config before.2

/-- How tick number `k` goes, counted from 1. -/
def outcomeAt (config : Config) (m : Machine) (devices : β) : Nat → Option TickOutcome
  | 0 => none
  | j + 1 => some (m.tickAfter config devices j).outcome

end Machine

/-- The tick from `m` that left `turn` hits the boundary. -/
def Boundary.Hit (m : Machine) (turn : Turn TickOutcome β) : Boundary → Prop
  | .modeChange => m.mode.id ≠ turn.machine.mode.id
  | .fault => ∃ cause, turn.outcome = .executed (.fault cause)
  | .tickLimit => False

/-- Tick number `k`, counted from 1, hits the boundary. -/
def Machine.HitAt (config : Config) (boundary : Boundary) (m : Machine) (devices : β) : Nat → Prop
  | 0 => False
  | j + 1 => boundary.Hit (m.afterTicks config devices j).1 (m.tickAfter config devices j)

/-- The run stops at the first tick that hits the boundary, or after `limit` ticks if none does, and
leaves what so many plain ticks leave. -/
structure RunsUntil (config : Config) (boundary : Boundary) (m : Machine) (devices : β) (limit : Nat)
    (run : Run β) : Prop where
  ticks : IsLeast {k | k ≤ limit ∧ m.HitAt config boundary devices k} run.ticks ∨
    (∀ k ≤ limit, ¬ m.HitAt config boundary devices k) ∧ run.ticks = limit
  state : (run.machine, run.devices) = m.afterTicks config devices run.ticks
  last : run.last = m.outcomeAt config devices run.ticks
  reached : run.boundaryReached = true ↔ m.HitAt config boundary devices run.ticks

namespace Run

omit [Provider β]

/-- Two runs, one after the other. -/
def followedBy (first second : Run β) : Run β where
  ticks := first.ticks + second.ticks
  last := if second.ticks = 0 then first.last else second.last
  boundaryReached := second.boundaryReached
  machine := second.machine
  devices := second.devices

/-- Goes on from where a run stopped, unless it stopped at the boundary. -/
def goOn (first : Run β) (rest : Machine → β → Run β) : Run β :=
  if first.boundaryReached then first else first.followedBy (rest first.machine first.devices)

/-- Three runs one after the other can be put together in either order. -/
lemma followedBy_assoc (first second third : Run β) :
    (first.followedBy second).followedBy third = first.followedBy (second.followedBy third) := by
  -- what the middle run adds to the count decides whose last tick is kept
  have hlast : (if third.ticks = 0 then if second.ticks = 0 then first.last else second.last
      else third.last) =
      if second.ticks + third.ticks = 0 then first.last
        else if third.ticks = 0 then second.last else third.last := by
    by_cases hthird : third.ticks = 0
    · rw [hthird, if_pos rfl, if_pos rfl]
      rfl
    · rw [if_neg hthird, if_neg hthird, if_neg (by omega)]
  apply Run.mk.injEq .. |>.mpr
  exact ⟨Nat.add_assoc first.ticks second.ticks third.ticks, hlast, rfl, rfl, rfl⟩

/-- A run that has reached its boundary does not go on. -/
lemma goOn_of_reached {first : Run β} (h : first.boundaryReached = true)
    (rest : Machine → β → Run β) : first.goOn rest = first := if_pos h

/-- A run that has not is followed by the rest. -/
lemma goOn_of_not_reached {first : Run β} (h : first.boundaryReached = false)
    (rest : Machine → β → Run β) :
    first.goOn rest = first.followedBy (rest first.machine first.devices) :=
  if_neg (by rw [h]; exact Bool.false_ne_true)

/-- To go on twice is to go on with what goes on. -/
lemma goOn_assoc (first : Run β) (f g : Machine → β → Run β) :
    (first.goOn f).goOn g = first.goOn fun m devices => (f m devices).goOn g := by
  cases hfirst : first.boundaryReached with
  | true => rw [goOn_of_reached hfirst, goOn_of_reached hfirst, goOn_of_reached hfirst]
  | false =>
    rw [goOn_of_not_reached hfirst, goOn_of_not_reached hfirst]
    generalize f first.machine first.devices = second
    have hboth : (first.followedBy second).boundaryReached = second.boundaryReached := rfl
    cases hsecond : second.boundaryReached with
    | true => rw [goOn_of_reached hsecond, goOn_of_reached (hboth.trans hsecond)]
    | false =>
      rw [goOn_of_not_reached hsecond, goOn_of_not_reached (hboth.trans hsecond)]
      exact followedBy_assoc first second _

end Run

omit [Provider β] in
/-- The check of a tick finds the boundary exactly if the tick hits it. -/
lemma Boundary.isReached_iff {boundary : Boundary} {m : Machine} {turn : Turn TickOutcome β} :
    boundary.isReached m turn = true ↔ boundary.Hit m turn := by
  cases boundary with
  | modeChange => exact decide_eq_true_iff
  | fault =>
    rw [isReached, Hit]
    split
    · next cause e => exact iff_of_true rfl ⟨cause, e⟩
    · next hno =>
      refine iff_of_false Bool.false_ne_true fun hcause => ?_
      obtain ⟨cause, e⟩ := hcause
      exact hno cause e
  | tickLimit => exact iff_of_false Bool.false_ne_true id

namespace Machine

variable (config : Config) (boundary : Boundary) (m : Machine) (devices : β)

/-- The run that is one tick. -/
def tickRun : Run β :=
  let turn := m.tick config devices
  { ticks := 1
    last := some turn.outcome
    boundaryReached := boundary.isReached m turn
    machine := turn.machine
    devices := turn.devices }

/-- What was run before counts in the ticks and, if nothing is left to run, in the last outcome. -/
lemma continueUntil_eq (ticks : Nat) (last : Option TickOutcome) (fuel : Nat) :
    m.continueUntil config boundary devices ticks last fuel =
      (⟨ticks, last, false, m, devices⟩ : Run β).followedBy
        (m.runUntil config boundary devices fuel) := by
  induction fuel generalizing m devices ticks last with
  | zero => rfl
  | succ fuel ih =>
    rw [runUntil, continueUntil, continueUntil]
    split
    · rfl
    · rw [ih _ _ (ticks + 1), ih _ _ (0 + 1), ← Run.followedBy_assoc]
      rfl

/-- A run is its first tick and then the run that has one tick less. -/
lemma runUntil_succ (limit : Nat) :
    m.runUntil config boundary devices (limit + 1) =
      (m.tickRun config boundary devices).goOn fun m devices =>
        m.runUntil config boundary devices limit := by
  rw [runUntil, continueUntil]
  cases h : boundary.isReached m (m.tick config devices) with
  | true =>
    rw [Run.goOn_of_reached h, tickRun, h]
    rfl
  | false =>
    rw [Run.goOn_of_not_reached h, tickRun, h]
    exact continueUntil_eq config boundary _ _ _ _ limit

/-- A run with two allowances is a run with the first that goes on with the second. -/
lemma runUntil_add (limit limit' : Nat) :
    m.runUntil config boundary devices (limit + limit') =
      (m.runUntil config boundary devices limit).goOn fun m devices =>
        m.runUntil config boundary devices limit' := by
  induction limit generalizing m devices with
  | zero =>
    rw [Nat.zero_add, Run.goOn_of_not_reached rfl]
    exact continueUntil_eq config boundary m devices 0 none limit'
  | succ limit ih =>
    rw [Nat.succ_add, runUntil_succ, runUntil_succ, Run.goOn_assoc]
    simp only [ih]

/-- The first of several ticks can be taken by itself. -/
lemma afterTicks_succ (j : Nat) :
    m.afterTicks config devices (j + 1) =
      (m.tick config devices).machine.afterTicks config (m.tick config devices).devices j := by
  induction j with
  | zero => rfl
  | succ j ih => rw [afterTicks, ih]; rfl

/-- A later tick is one of those that follow the first. -/
lemma tickAfter_succ (j : Nat) :
    m.tickAfter config devices (j + 1) =
      (m.tick config devices).machine.tickAfter config (m.tick config devices).devices j := by
  rw [tickAfter, afterTicks_succ]
  rfl

/-- After the first tick, the ticks are those of the machine it left. -/
lemma hitAt_succ_iff {k : Nat} (hk : k ≠ 0) :
    m.HitAt config boundary devices (k + 1) ↔
      (m.tick config devices).machine.HitAt config boundary (m.tick config devices).devices k := by
  obtain ⟨j, rfl⟩ := Nat.exists_eq_succ_of_ne_zero hk
  rw [HitAt, HitAt, afterTicks_succ, tickAfter_succ]

/-- The outcome of a later tick is one of those that follow the first. -/
lemma outcomeAt_succ (k : Nat) :
    m.outcomeAt config devices (k + 1) =
      if k = 0 then some (m.tick config devices).outcome
      else (m.tick config devices).machine.outcomeAt config (m.tick config devices).devices k := by
  cases k with
  | zero => rfl
  | succ j =>
    rw [outcomeAt, tickAfter_succ]
    rfl

end Machine

namespace RunsUntil

variable {config : Config} {boundary : Boundary} {m : Machine} {devices : β} {limit : Nat}

/-- A first tick that hits the boundary is the whole run. -/
lemma of_hit (h : boundary.Hit m (m.tick config devices)) :
    RunsUntil config boundary m devices (limit + 1) (m.tickRun config boundary devices) where
  ticks := by
    refine .inl ⟨⟨Nat.le_add_left 1 limit, h⟩, ?_⟩
    intro k hk
    cases k with
    | zero => exact hk.2.elim
    | succ k => exact Nat.le_add_left 1 k
  state := rfl
  last := rfl
  reached := Boundary.isReached_iff

/-- A first tick that does not hit the boundary goes in front of the run from where it led. -/
lemma cons (h : ¬ boundary.Hit m (m.tick config devices)) {rest : Machine → β → Run β}
    (hrest : RunsUntil config boundary (m.tick config devices).machine (m.tick config devices).devices
      limit (rest (m.tick config devices).machine (m.tick config devices).devices)) :
    RunsUntil config boundary m devices (limit + 1)
      ((m.tickRun config boundary devices).goOn rest) := by
  have hreached : boundary.isReached m (m.tick config devices) = false := by
    rwa [← Bool.not_eq_true, Boundary.isReached_iff]
  have hlater (k : Nat) : m.HitAt config boundary devices (k + 1) ↔
      (m.tick config devices).machine.HitAt config boundary (m.tick config devices).devices k := by
    cases k with
    | zero => exact iff_of_false h nofun
    | succ j => exact m.hitAt_succ_iff config boundary devices (Nat.succ_ne_zero j)
  rw [Run.goOn_of_not_reached hreached]
  change RunsUntil config boundary m devices (limit + 1)
    ((m.tickRun config boundary devices).followedBy
      (rest (m.tick config devices).machine (m.tick config devices).devices))
  generalize rest (m.tick config devices).machine (m.tick config devices).devices = second at hrest ⊢
  have hticks : ((m.tickRun config boundary devices).followedBy second).ticks = second.ticks + 1 :=
    Nat.add_comm 1 second.ticks
  constructor
  case ticks =>
    rw [hticks]
    rcases hrest.ticks with ⟨⟨hle, hhit⟩, hleast⟩ | ⟨hnone, hlimit⟩
    · refine .inl ⟨⟨Nat.succ_le_succ hle, (hlater _).2 hhit⟩, ?_⟩
      intro k ⟨hk, hhit'⟩
      cases k with
      | zero => exact hhit'.elim
      | succ k => exact Nat.succ_le_succ (hleast ⟨Nat.le_of_succ_le_succ hk, (hlater k).1 hhit'⟩)
    · refine .inr ⟨?_, congrArg (· + 1) hlimit⟩
      intro k hk hhit
      cases k with
      | zero => exact hhit
      | succ k => exact hnone k (Nat.le_of_succ_le_succ hk) ((hlater k).1 hhit)
  case state =>
    rw [hticks, Machine.afterTicks_succ]
    exact hrest.state
  case last =>
    rw [hticks, Machine.outcomeAt_succ, ← hrest.last]
    rfl
  case reached =>
    rw [hticks, hlater]
    exact hrest.reached

/-- There is one such run. -/
lemma unique {run run' : Run β} (h : RunsUntil config boundary m devices limit run)
    (h' : RunsUntil config boundary m devices limit run') : run = run' := by
  have hticks : run.ticks = run'.ticks := by
    rcases h.ticks with hleast | ⟨hnone, hlimit⟩
    · rcases h'.ticks with hleast' | ⟨hnone', -⟩
      · exact hleast.unique hleast'
      · exact absurd hleast.1.2 (hnone' _ hleast.1.1)
    · rcases h'.ticks with hleast' | ⟨-, hlimit'⟩
      · exact absurd hleast'.1.2 (hnone _ hleast'.1.1)
      · exact hlimit.trans hlimit'.symm
  have hstate := h.state
  have hlast := h.last
  have hreached := h.reached
  rw [hticks, ← h'.state] at hstate
  rw [hticks, ← h'.last] at hlast
  rw [hticks, ← h'.reached, ← Bool.eq_iff_iff] at hreached
  obtain ⟨hmachine, hdevices⟩ := Prod.mk.inj hstate
  cases run
  cases run'
  cases hticks
  cases hlast
  cases hreached
  cases hmachine
  cases hdevices
  rfl

end RunsUntil

/-- A run until a boundary is the run that `RunsUntil` describes. -/
lemma runsUntil_runUntil (config : Config) (boundary : Boundary) (m : Machine) (devices : β)
    (limit : Nat) :
    RunsUntil config boundary m devices limit (m.runUntil config boundary devices limit) := by
  induction limit generalizing m devices with
  | zero =>
    refine ⟨.inr ⟨?_, rfl⟩, rfl, rfl, ⟨nofun, nofun⟩⟩
    intro k hk
    rw [Nat.le_zero.1 hk]
    exact id
  | succ limit ih =>
    rw [Machine.runUntil_succ]
    by_cases h : boundary.Hit m (m.tick config devices)
    · have hreached : (m.tickRun config boundary devices).boundaryReached = true :=
        Boundary.isReached_iff.2 h
      rw [Run.goOn_of_reached hreached]
      exact .of_hit h
    · exact .cons h (ih _ _)

/-- A run up to a boundary is plain ticks, stopped after the first one that hits it or at the limit. A run
with a larger limit is the run with the smaller one, gone on with if it did not reach the boundary. -/
theorem runUntil_is_ticks_to_first_hit (config : Config) (boundary : Boundary) (m : Machine)
    (devices : β) (limit limit' : Nat) :
    (∀ run, m.runUntil config boundary devices limit = run ↔
      RunsUntil config boundary m devices limit run) ∧
    m.runUntil config boundary devices (limit + limit') =
      (m.runUntil config boundary devices limit).goOn fun m devices =>
        m.runUntil config boundary devices limit' := by
  refine ⟨fun run => ⟨?_, ?_⟩, m.runUntil_add config boundary devices limit limit'⟩
  · intro e
    exact e ▸ runsUntil_runUntil config boundary m devices limit
  · exact (runsUntil_runUntil config boundary m devices limit).unique

end CardMachine
