import CardMachine.Proofs.Lockstep
import CardMachine.Proofs.Ownership
import CardMachine.Proofs.Snapshot.Load
import CardMachine.Proofs.Snapshot.Text

/-!
# A session starts over whole

A front end works a session by requests: `Session.serve` answers one and `Session.serveAll` a list of
them, which is a history when it begins with a new session. A load that succeeds, and a reset, start
over (`StartsWith`) and leave nothing of the history but the program that a reset keeps; a load that
fails leaves everything. So two histories that end in the same load cannot be told apart by any later
request.

A reset is compared with loading a saved machine at the start of the program. That takes a program all
of whose positions can be named, which every history has (`serveAll_addressable`).
-/

namespace CardMachine.Session

/-- What a front end can ask of a session. -/
inductive Request
  | loadSource (source : String) (literate : Bool)
  | loadState (text : String)
  | tick (count : Nat)
  | reset
  | save
  | listing
  | view

/-- What it hears back. -/
inductive Answer
  | assembled (result : Except String (List String))
  | loaded (warnings : List String)
  | ran (last : Option DriveOutcome)
  | started
  | text (text : String)
  | view (view : View)

/-- Answers one request. -/
def serve (s : Session) : Request → Session × Answer
  | .loadSource source literate =>
    let (s, result) := s.loadSource source literate
    (s, .assembled result)
  | .loadState text =>
    let (s, warnings) := loadState text
    (s, .loaded warnings)
  | .tick count =>
    let (s, last) := s.run count
    (s, .ran last)
  | .reset => (s.reset, .started)
  | .save => (s, .text s.saveState)
  | .listing => (s, .text s.listing)
  | .view => (s, .view s.view)

/-- Answers requests one after the other. -/
def serveAll : Session → List Request → Session × List Answer
  | s, [] => (s, [])
  | s, request :: rest =>
    let (s, answer) := s.serve request
    let (s, answers) := s.serveAll rest
    (s, answer :: answers)

/-- A request that puts in another machine: a source that assembles, or a saved machine. -/
inductive Request.Loads : Request → Prop where
  | source {source : String} {literate : Bool} {a : Assembly} :
    Assembly.ofSource (sourceName literate) source = .ok a →
    Loads (.loadSource source literate)
  | state (text : String) : Loads (.loadState text)

/-- A request with which a session starts over. -/
inductive Request.Restarts : Request → Prop where
  | load {request : Request} : request.Loads → Restarts request
  | reset : Restarts .reset

/-- The ticks that a request asks for. -/
def Request.ticks : Request → Nat
  | .tick count => count
  | _ => 0

/-- The machine is `m`, and nothing has happened to it: the body stands at the origin, the only
peripheral is a timer that has not waited yet, and no tick has been counted. -/
structure StartsWith (s : Session) (m : Machine) : Prop where
  machine : s.robot.machine = m
  body : s.robot.body = ⟨0, 0, 0⟩
  devices : ∀ slot, s.robot.devices.get? slot = if slot.val = 0 then some ⟨0⟩ else none
  ticks : s.ticks = 0

/-- To start over with a machine leaves nothing else. -/
lemma startsWith_start (m : Machine) : (start m).StartsWith m where
  machine := rfl
  body := rfl
  devices := by
    have hdevices : ∀ slot, ({} : Robot).devices.get? slot = if slot.val = 0 then some ⟨0⟩ else none := by
      decide
    exact hdevices
  ticks := rfl

section steps

variable (s : Session)

/-- A source that assembles is started with, and its warnings are reported. -/
lemma serve_loadSource_of_ok {source : String} {literate : Bool} {a : Assembly}
    (h : Assembly.ofSource (sourceName literate) source = .ok a) :
    s.serve (.loadSource source literate) =
      (start (.ofProgram a.program), .assembled (.ok (a.warnings.map Assembly.Warning.report))) := by
  rw [serve, s.loadSource_of_eq_ok h]
  rfl

/-- A source that does not assemble changes nothing, and its errors are reported. -/
lemma serve_loadSource_of_error {source : String} {literate : Bool} {errors : List Assembly.Error}
    (h : Assembly.ofSource (sourceName literate) source = .error errors) :
    s.serve (.loadSource source literate) = (s, .assembled (.error (Assembly.reports errors))) := by
  rw [serve, s.loadSource_of_eq_error h]

/-- A load does not look at the session. -/
lemma serve_of_loads {request : Request} (h : request.Loads) (s' : Session) :
    s.serve request = s'.serve request := by
  cases h with
  | source h => rw [s.serve_loadSource_of_ok h, s'.serve_loadSource_of_ok h]
  | state text => rfl

/-- The count starts over with the session. -/
lemma ticks_of_restarts {request : Request} (h : request.Restarts) :
    (s.serve request).1.ticks = 0 := by
  cases h with
  | load h =>
    cases h with
    | source h => rw [s.serve_loadSource_of_ok h]; rfl
    | state text => rfl
  | reset => rfl

/-- Every tick of a run is counted. -/
lemma runFrom_ticks (last : Option DriveOutcome) (n : Nat) :
    (runFrom last n s).1.ticks = s.ticks + n := by
  induction n generalizing s last with
  | zero => rfl
  | succ n ih =>
    rw [runFrom]
    dsimp only
    rw [ih, show s.tick.1.ticks = s.ticks + 1 from rfl]
    omega

/-- Where a session does not start over, the ticks that are asked for are counted. -/
lemma ticks_of_not_restarts {request : Request} (h : ¬ request.Restarts) :
    (s.serve request).1.ticks = s.ticks + request.ticks := by
  cases request with
  | loadSource source literate =>
    cases hassembly : Assembly.ofSource (sourceName literate) source with
    | error errors => rw [s.serve_loadSource_of_error hassembly]; rfl
    | ok a => exact absurd (.load (.source hassembly)) h
  | loadState text => exact absurd (.load (.state text)) h
  | tick count => exact s.runFrom_ticks none count
  | reset => exact absurd .reset h
  | _ => rfl

/-- What went before a run shows only if the run has no ticks. -/
lemma runFrom_eq (last : Option DriveOutcome) (n : Nat) :
    runFrom last n s = ((s.run n).1, (s.run n).2.or last) := by
  induction n generalizing s last with
  | zero => rfl
  | succ n ih =>
    have hfrom (last : Option DriveOutcome) :
        runFrom last (n + 1) s = runFrom (some s.tick.2) n s.tick.1 := rfl
    rw [run, hfrom, hfrom, ih s.tick.1, Option.or_assoc]
    rfl

/-- Ticks in two goes are ticks in one. -/
lemma run_add (n m : Nat) :
    s.run (n + m) = (((s.run n).1.run m).1, ((s.run n).1.run m).2.or (s.run n).2) := by
  have hsplit (last : Option DriveOutcome) :
      runFrom last (n + m) s = runFrom (runFrom last n s).2 m (runFrom last n s).1 := by
    induction n generalizing s last with
    | zero => rw [Nat.zero_add]; rfl
    | succ n ih =>
      rw [Nat.add_right_comm, runFrom, runFrom]
      exact ih s.tick.1 (some s.tick.2)
  rw [run, hsplit, runFrom_eq]
  rfl

/-- A tick leaves the program. -/
lemma tick_program : s.tick.1.robot.machine.program = s.robot.machine.program := by
  by_cases h : s.robot.machine.mode.id = .own Mode.executingPath
  · exact (Machine.drive_of_executing Timer.callsKeepProgram {} h s.robot.body s.robot.devices).2.2
  · obtain ⟨-, rests, -⟩ :=
      Machine.drive_of_not_executing Timer.offersRest {} h s.robot.body s.robot.devices
    exact rests.program

lemma run_program (n : Nat) : (s.run n).1.robot.machine.program = s.robot.machine.program := by
  induction n generalizing s with
  | zero => rfl
  | succ n ih =>
    have hrun : (s.run (n + 1)).1 = (s.tick.1.run n).1 := by
      rw [Nat.add_comm, run_add]
      rfl
    rw [hrun, ih, tick_program]

end steps

/-- A source assembles to an addressable program. -/
lemma addressable_ofSource {path content : String} {a : Assembly}
    (h : Assembly.ofSource path content = .ok a) : Addressable a.program.cards := by
  obtain ⟨_, _, _, _, _, _, _, rfl⟩ := Assembly.ofLines_eq_ok_iff.1 h
  exact Program.addressable_ofCards _

/-- A saved machine is loaded with an addressable program. -/
lemma addressable_load (text : String) : Addressable (Snapshot.load text).value.program.cards := by
  rw [Snapshot.load]
  split
  · exact Snapshot.addressable_default
  rw [Snapshot.decode]
  split
  · exact Snapshot.addressable_default
  · exact Snapshot.decodeProgram_addressable _

/-- A request leaves an addressable program. -/
lemma serve_addressable {s : Session} (h : Addressable s.robot.machine.program.cards)
    (request : Request) : Addressable (s.serve request).1.robot.machine.program.cards := by
  cases request with
  | loadSource source literate =>
    cases hassembly : Assembly.ofSource (sourceName literate) source with
    | error errors => rw [s.serve_loadSource_of_error hassembly]; exact h
    | ok a =>
      rw [s.serve_loadSource_of_ok hassembly]
      exact addressable_ofSource hassembly
  | loadState text => exact addressable_load text
  | tick count =>
    have hprogram : (s.serve (.tick count)).1.robot.machine.program = s.robot.machine.program :=
      s.run_program count
    rw [hprogram]
    exact h
  | _ => exact h

/-- Requests leave an addressable program. -/
lemma serveAll_addressable {s : Session} (h : Addressable s.robot.machine.program.cards)
    (requests : List Request) :
    Addressable (s.serveAll requests).1.robot.machine.program.cards := by
  induction requests generalizing s with
  | nil => exact h
  | cons request rest ih => exact ih (serve_addressable h request)

/-- Two lists of requests, one after the other. -/
lemma serveAll_append (s : Session) (requests requests' : List Request) :
    (s.serveAll (requests ++ requests')).1 = ((s.serveAll requests).1.serveAll requests').1 := by
  induction requests generalizing s with
  | nil => rfl
  | cons request rest ih => exact ih (s.serve request).1

/-- Until the session starts over, its count goes up by the ticks that are asked for. -/
lemma serveAll_ticks {requests : List Request} (h : ∀ request ∈ requests, ¬ request.Restarts)
    (s : Session) :
    (s.serveAll requests).1.ticks = s.ticks + (requests.map Request.ticks).sum := by
  induction requests generalizing s with
  | nil => rfl
  | cons request rest ih =>
    have hfirst := s.ticks_of_not_restarts (h request List.mem_cons_self)
    have hrest := ih (fun r hr => h r (List.mem_cons_of_mem request hr)) (s.serve request).1
    rw [hfirst] at hrest
    rw [List.map_cons, List.sum_cons, ← Nat.add_assoc]
    exact hrest

/-- A machine that executes comes back from the text it was saved as. -/
lemma load_save_of_executing {m : Machine} (wf : m.WellFormed) (h : m.mode = .executing) :
    Snapshot.load (Snapshot.save m) = ⟨m, []⟩ := by
  have hparse : Json.parse? (Snapshot.save m) = some (Snapshot.encode m) := by
    refine (Snapshot.legible_encode fun key x => ?_).parse?_text
    rw [h]
    exact List.not_mem_nil
  have hdecode : Snapshot.decode (Snapshot.encode m) = ⟨m.canonicalize, []⟩ :=
    Snapshot.decode_encode wf (h ▸ Mode.savable_executing)
  rw [Snapshot.load, hparse]
  dsimp only
  rw [hdecode, Machine.canonicalize, h]
  cases m
  cases h
  rfl

/-- Loading the start of a program is the same as starting over with it. -/
lemma loadState_save_ofProgram {p : Program} (h : Addressable p.cards) :
    loadState (Snapshot.save (.ofProgram p)) = (start (.ofProgram p), []) := by
  have wf : (Machine.ofProgram p).WellFormed := ⟨Snapshot.inRange_default, h⟩
  rw [loadState, load_save_of_executing wf rfl]
  rfl

/-- Whatever the history of a session, loading is all or nothing and forgets what came before. -/
theorem loads_forget_the_past (history : List Request) :
    let s := (({} : Session).serveAll history).1
    -- a source that does not assemble changes nothing
    (∀ source literate errors, Assembly.ofSource (sourceName literate) source = .error errors →
      (s.serve (.loadSource source literate)).1 = s) ∧
    -- a load leaves a session that starts with what was loaded, a reset one with the same program
    (∀ source literate a, Assembly.ofSource (sourceName literate) source = .ok a →
      (s.serve (.loadSource source literate)).1.StartsWith (.ofProgram a.program) ∧
        (s.serve (.loadSource source literate)).2 =
          .assembled (.ok (a.warnings.map Assembly.Warning.report))) ∧
    (∀ text, let loaded := Snapshot.load text
      (s.serve (.loadState text)).1.StartsWith loaded.value ∧
        (s.serve (.loadState text)).2 = .loaded (loaded.warnings.map Snapshot.Warning.message)) ∧
    (s.serve .reset).1.StartsWith (.ofProgram s.robot.machine.program) ∧
    -- a load goes as in a new session, and a reset as a load of the start of the program
    (∀ load : Request, load.Loads → s.serve load = ({} : Session).serve load) ∧
    (({} : Session).serve (.loadState (Snapshot.save (.ofProgram s.robot.machine.program))) =
      ((s.serve .reset).1, .loaded [])) ∧
    -- so nothing that is asked later depends on what came before
    (∀ (history' : List Request) (restart : Request) (later : List Request),
      let s' := (({} : Session).serveAll history').1
      restart.Loads ∨ restart = .reset ∧ s'.robot.machine.program = s.robot.machine.program →
        (s.serve restart).1.serveAll later = (s'.serve restart).1.serveAll later) ∧
    -- the count is of the ticks since the session last started over
    (∀ (restart : Request) (later : List Request),
      restart.Restarts → (∀ request ∈ later, ¬ request.Restarts) →
        (({} : Session).serveAll (history ++ restart :: later)).1.ticks =
          (later.map Request.ticks).sum) ∧
    ((∀ request ∈ history, ¬ request.Restarts) → s.ticks = (history.map Request.ticks).sum) ∧
    -- ticks in two goes are ticks in one
    ∀ n m, s.run (n + m) = (((s.run n).1.run m).1, ((s.run n).1.run m).2.or (s.run n).2) := by
  intro s
  have haddr : Addressable s.robot.machine.program.cards :=
    serveAll_addressable Snapshot.addressable_default history
  refine ⟨?_, ?_, fun text => ⟨startsWith_start _, rfl⟩, startsWith_start _,
    fun load h => s.serve_of_loads h {}, ?_, ?_, ?_, ?_, s.run_add⟩
  · intro source literate errors h
    rw [s.serve_loadSource_of_error h]
  · intro source literate a h
    rw [s.serve_loadSource_of_ok h]
    exact ⟨startsWith_start _, rfl⟩
  · rw [serve, loadState_save_ofProgram haddr]
    rfl
  · rintro history' restart later s' (h | ⟨rfl, hprogram⟩)
    · rw [s.serve_of_loads h s']
    · have hreset : (s.serve .reset).1 = (s'.serve .reset).1 := by
        rw [serve, serve, reset, reset, hprogram]
      rw [hreset]
  · intro restart later hrestart hlater
    rw [serveAll_append]
    have hticks := serveAll_ticks hlater (s.serve restart).1
    rw [s.ticks_of_restarts hrestart, Nat.zero_add] at hticks
    exact hticks
  · intro h
    have hticks := serveAll_ticks h {}
    rw [Nat.zero_add] at hticks
    exact hticks

/-- A session that has moved, waits, and is then given half a source. -/
def busyHistory : List Request :=
  [.loadSource "MOV 1\nSLP 2" false, .tick 15, .view, .loadSource "JMP nowhere" false]

/-- A machine that counts in `A`, one instruction on. -/
def counting : Machine :=
  { ip := .narrow 1
    registers := { a := 7 }
    program := ⟨[[⟨.add, .literal 1, none⟩, ⟨.jmp, .literal 0, none⟩]]⟩ }

/-- The half of a source changes nothing, a whole one and a saved machine start over, and after a reset
only the ticks since then count. -/
theorem busyHistory_is_forgotten :
    let s := (({} : Session).serveAll busyHistory).1
    (s.serve (.loadSource "JMP nowhere" false)).1 = s ∧
      (s.serve (.loadSource "LDA 3" false)).1.StartsWith
        (.ofProgram ⟨[[⟨.lda, .literal 3, none⟩]]⟩) ∧
      (s.serve (.loadState (Snapshot.save counting))).1.StartsWith counting ∧
      (({} : Session).serveAll
        (busyHistory ++ .reset :: [.tick 3, .loadSource "JMP nowhere" false, .tick 4])).1.ticks = 7 := by
  have herror : ∃ errors, Assembly.ofSource (sourceName false) "JMP nowhere" = .error errors := by
    refine ⟨[⟨.symbol (.undefinedLabel "nowhere"), some ⟨"input.cards", 1, 5⟩⟩], ?_⟩
    decide +kernel
  obtain ⟨errors, herror⟩ := herror
  have hfailed : ¬ (Request.loadSource "JMP nowhere" false).Restarts := by
    rintro ⟨⟨h⟩⟩
    cases herror.symm.trans h
  have htick (count : Nat) : ¬ (Request.tick count).Restarts := by
    rintro ⟨⟨⟩⟩
  have hload : Snapshot.load (Snapshot.save counting) = ⟨counting, []⟩ :=
    load_save_of_executing ⟨by intro r; cases r <;> decide, by decide⟩ rfl
  have hok : (Assembly.ofSource (sourceName false) "LDA 3").toOption.map Assembly.program =
      some ⟨[[⟨.lda, .literal 3, none⟩]]⟩ := by
    decide +kernel
  obtain ⟨hfail, hsource, hstate, -, -, -, -, hticks, -, -⟩ := loads_forget_the_past busyHistory
  refine ⟨hfail _ _ errors herror, ?_, ?_, hticks .reset _ .reset ?_⟩
  · cases ha : Assembly.ofSource (sourceName false) "LDA 3" with
    | error errors => rw [ha] at hok; cases hok
    | ok a =>
      rw [ha] at hok
      have hprogram : a.program = ⟨[[⟨.lda, .literal 3, none⟩]]⟩ := Option.some.inj hok
      exact hprogram ▸ (hsource "LDA 3" false a ha).1
  · have hstarts := (hstate (Snapshot.save counting)).1
    rw [hload] at hstarts
    exact hstarts
  · simp [hfailed, htick]

end CardMachine.Session
