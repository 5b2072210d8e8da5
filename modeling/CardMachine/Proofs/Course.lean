import CardMachine.Proofs.Range

/-!
# Courses

A host works a rig by requests: a step, a tick, a driven tick, the last two also with their events, or
ticks up to a boundary. `Rig.serve` answers one request and `Rig.serveAll` a list of them, one after
the other. What comes of a list is a `Course`: the answers and the events in order, and the rig that is
left. Asking for the same thing `n` times is `List.replicate n`.

A rig that counts its requests down answers all of them alike: `serveAll_countdown` needs an invariant
that says of a rig how many such requests are still to come, and that each of them makes one less.
-/

namespace CardMachine.Rig

/-- What a host can ask of a rig. -/
inductive Request
  | execute
  | tick
  | tickTraced
  | drive
  | driveTraced
  | runUntil (boundary : Boundary) (limit : Nat)
  deriving DecidableEq

/-- How it went. -/
inductive Answer
  | step (outcome : StepOutcome)
  | tick (outcome : TickOutcome)
  | drive (outcome : DriveOutcome)
  | run (ticks : Nat) (last : Option TickOutcome) (boundaryReached : Bool)
  deriving DecidableEq

/-- What one request leaves. -/
structure Served (κ β : Type) where
  answer : Answer
  log : Log
  rig : Rig κ β

namespace Served

variable {κ β : Type}

/-- A turn in which the body has no part. -/
def ofTurn {ω : Type} (answer : ω → Answer) (body : κ) (turn : Turn ω β) : Served κ β :=
  ⟨answer turn.outcome, turn.log, ⟨turn.machine, body, turn.devices⟩⟩

/-- A turn in which the body has a part. -/
def ofDriveTurn (turn : DriveTurn κ β) : Served κ β :=
  ⟨.drive turn.outcome, turn.log, ⟨turn.machine, turn.body, turn.devices⟩⟩

/-- Nobody listens to a run up to a boundary. -/
def ofRun (body : κ) (run : Run β) : Served κ β :=
  ⟨.run run.ticks run.last run.boundaryReached, none, ⟨run.machine, body, run.devices⟩⟩

end Served

/-- What a list of requests leaves. -/
structure Course (κ β : Type) where
  answers : List Answer
  events : List Event
  rig : Rig κ β

variable {κ β : Type} [Chassis κ] [Provider β]

/-- Answers one request. -/
def serve (config : Config) (r : Rig κ β) : Request → Served κ β
  | .execute => .ofTurn .step r.body (r.machine.execute config r.devices)
  | .tick => .ofTurn .tick r.body (r.machine.tick config r.devices)
  | .tickTraced => .ofTurn .tick r.body (r.machine.tickTraced config r.devices)
  | .drive => .ofDriveTurn (r.machine.drive config r.body r.devices)
  | .driveTraced => .ofDriveTurn (r.machine.driveTraced config r.body r.devices)
  | .runUntil boundary limit => .ofRun r.body (r.machine.runUntil config boundary r.devices limit)

/-- Answers requests one after the other. -/
def serveAll (config : Config) : Rig κ β → List Request → Course κ β
  | r, [] => ⟨[], [], r⟩
  | r, request :: rest =>
    let served := r.serve config request
    let course := served.rig.serveAll config rest
    ⟨served.answer :: course.answers, served.log.getD [] ++ course.events, course.rig⟩

/-- The rig with its machine in another mode. -/
def inMode (r : Rig κ β) (mode : Mode) : Rig κ β :=
  { r with machine := { r.machine with mode } }

/-- Two lists of requests, one after the other. -/
lemma serveAll_append (config : Config) (r : Rig κ β) (requests requests' : List Request) :
    r.serveAll config (requests ++ requests') =
      let first := r.serveAll config requests
      let second := first.rig.serveAll config requests'
      ⟨first.answers ++ second.answers, first.events ++ second.events, second.rig⟩ := by
  induction requests generalizing r with
  | nil => rfl
  | cons request rest ih =>
    rw [List.cons_append, serveAll, serveAll]
    dsimp only
    rw [ih, List.append_assoc]
    rfl

/-- The last of equal requests, apart from the others. -/
lemma serveAll_replicate_succ (config : Config) (r : Rig κ β) (n : Nat) (request : Request) :
    let course := r.serveAll config (.replicate n request)
    let last := course.rig.serve config request
    (r.serveAll config (.replicate (n + 1) request)).answers = course.answers ++ [last.answer] ∧
      (r.serveAll config (.replicate (n + 1) request)).rig = last.rig := by
  rw [List.replicate_succ', serveAll_append]
  exact ⟨rfl, rfl⟩

/-- While a rig has requests of a kind to come, each is answered alike and leaves one less. So they are
all answered alike, and what is still to come is known after each of them. -/
lemma serveAll_countdown {config : Config} {request : Request} {answer : Answer}
    (toCome : Nat → Rig κ β → Prop)
    (step : ∀ n r, toCome (n + 1) r →
      (r.serve config request).answer = answer ∧ toCome n (r.serve config request).rig)
    {n : Nat} {r : Rig κ β} (h : toCome n r) :
    (r.serveAll config (.replicate n request)).answers = .replicate n answer ∧
      ∀ j ≤ n, toCome (n - j) (r.serveAll config (.replicate j request)).rig := by
  induction n generalizing r with
  | zero =>
    refine ⟨rfl, fun j hj => ?_⟩
    rw [Nat.le_zero.1 hj]
    exact h
  | succ n ih =>
    obtain ⟨hanswer, hnext⟩ := step n r h
    obtain ⟨hanswers, hcome⟩ := ih hnext
    refine ⟨?_, fun j hj => ?_⟩
    · rw [List.replicate_succ, List.replicate_succ, serveAll]
      dsimp only
      rw [hanswer, hanswers]
    · cases j with
      | zero => exact h
      | succ j =>
        rw [Nat.add_sub_add_right, List.replicate_succ, serveAll]
        exact hcome j (Nat.le_of_succ_le_succ hj)

end CardMachine.Rig
