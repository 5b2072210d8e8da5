import CardMachine.Console.Plan
import CardMachine.Proofs.Listening
import CardMachine.Proofs.Reassembly

/-!
# The front ends run in lockstep

The console assembles a file under its own name and lets the robot take traced ticks; a session assembles
under a name of its own and lets it take quiet ones. The name of a file stands in the places of an
assembly and nowhere in its program (`ofSource_refile`), and listening changes nothing, so from one source
both front ends have the same robot after any number of ticks (`foldTicks_fst`).

`tracing_changes_no_run` says both: of ticks, driven or not, and of the front ends.
-/

namespace CardMachine

namespace Assembly

/-- The entry as it would stand in `file`. -/
def Entry.inFile (file : String) (e : Entry) : Entry :=
  { e with location := { e.location with file } }

variable {file : String} (file' : String)

/-- An operand is resolved in the same way under another name of the file. -/
lemma resolveEntry_refile {layout : Layout} {c : CardLayout} {card index : Nat}
    {placed : PlacedInstruction} {e : Entry}
    (h : resolveEntry file layout c card placed index = .ok e) :
    ∃ e', resolveEntry file' layout c card placed index = .ok e' ∧ e'.inFile file = e := by
  rw [resolveEntry] at h ⊢
  split at h
  · cases h
  · cases h
    exact ⟨_, rfl, rfl⟩

/-- A card is resolved in the same way under another name of the file. -/
lemma resolveCard_refile {layout : Layout} {c : CardLayout} {card : Nat} {entries : List Entry}
    (h : resolveCard file layout c card = entries.map .ok) :
    ∃ entries' : List Entry, resolveCard file' layout c card = entries'.map .ok ∧
      entries'.map (Entry.inFile file) = entries :=
  exists_map_eq (fun _ _ he => resolveEntry_refile file' he) h

/-- A layout is resolved in the same way under another name of the file. -/
lemma resolveAll_refile {layout : Layout} {cards : List (List Entry)}
    (h : resolveAll file layout = .ok cards) :
    ∃ cards', resolveAll file' layout = .ok cards' ∧
      cards'.map (·.map (Entry.inFile file)) = cards := by
  simp only [resolveAll_eq_ok_iff] at h ⊢
  exact exists_map_eq (fun _ _ hc => resolveCard_refile file' hc) h

/-- A line that can be read is read in the same way under another name of the file. -/
lemma readLine_refile {source : List SourceLine} {lines : List NumberedLine}
    (h : source.map (readLine file) = lines.map .ok) :
    source.map (readLine file') = lines.map .ok := by
  have step (l : SourceLine) (line : NumberedLine) (hl : readLine file l = .ok line) :
      ∃ line', readLine file' l = .ok line' ∧ id line' = line := by
    rw [readLine] at hl ⊢
    split at hl
    · cases hl
      exact ⟨_, rfl, rfl⟩
    · cases hl
  obtain ⟨lines', hlines', rfl⟩ := exists_map_eq step h
  rwa [List.map_id]

/-- The name of the file is not in the program. -/
lemma ofLines_refile {source : List SourceLine} {a : Assembly} (h : ofLines file source = .ok a) :
    ∃ a', ofLines file' source = .ok a' ∧ a'.program = a.program := by
  obtain ⟨lines, layout, cards, hread, hlayout, hbeyond, hcards, rfl⟩ := ofLines_eq_ok_iff.1 h
  obtain ⟨cards', hcards', rfl⟩ := resolveAll_refile file' hcards
  have hread' := readLine_refile file' hread
  have hbeyond' : unaddressable file' layout = [] :=
    unaddressable_eq_nil_iff.2 (unaddressable_eq_nil_iff.1 hbeyond)
  refine ⟨_, ofLines_eq_ok_iff.2 ⟨lines, layout, cards', hread', hlayout, hbeyond', hcards', rfl⟩, ?_⟩
  simp only [ofEntries, List.map_map, Function.comp_def, Entry.inFile]

/-- A source has the same program under any two names of one kind. -/
lemma ofSource_refile {path path' content : String} {a : Assembly}
    (same : Source.isLiterate path = Source.isLiterate path') (h : ofSource path content = .ok a) :
    ∃ a', ofSource path' content = .ok a' ∧ a'.program = a.program := by
  have e : Source.extract path content = Source.extract path' content := by
    rw [Source.extract, Source.extract, same]
  rw [ofSource, e] at h
  exact ofLines_refile path' h

end Assembly

/-- The name under which a source is assembled tells whether it is literate. -/
lemma Session.isLiterate_sourceName (literate : Bool) :
    Source.isLiterate (sourceName literate) = literate := by
  cases literate <;> decide +kernel

namespace Session

variable (s : Session) {path source : String} {literate : Bool}

-- `delta` opens the definition and no more: which way its `match` goes is for `h` to say

/-- A session starts over with a source that assembles. -/
lemma loadSource_of_eq_ok {a : Assembly} (h : Assembly.ofSource (sourceName literate) source = .ok a) :
    s.loadSource source literate = (start a.machine, .ok (a.warnings.map Assembly.Warning.report)) := by
  delta loadSource
  rw [h]

/-- A session stays as it is if a source does not assemble. -/
lemma loadSource_of_eq_error {errors : List Assembly.Error}
    (h : Assembly.ofSource (sourceName literate) source = .error errors) :
    s.loadSource source literate = (s, .error (Assembly.reports errors)) := by
  delta loadSource
  rw [h]

variable (hpath : Source.isLiterate path = literate)
include hpath

/-- A session starts with the program that the source has under any name of the same kind. -/
lemma loadSource_of_ofSource {a : Assembly} (h : Assembly.ofSource path source = .ok a) :
    (s.loadSource source literate).1 = .start a.machine ∧
      ∃ warnings, (s.loadSource source literate).2 = .ok warnings := by
  have same := hpath.trans (isLiterate_sourceName literate).symm
  obtain ⟨a', h', hprogram⟩ := Assembly.ofSource_refile same h
  rw [s.loadSource_of_eq_ok h', Assembly.machine, hprogram]
  exact ⟨rfl, _, rfl⟩

/-- A source assembles under a name of its own exactly if a session can load it. -/
lemma exists_ofSource_iff :
    (∃ a, Assembly.ofSource path source = .ok a) ↔
      ∃ warnings, (s.loadSource source literate).2 = .ok warnings := by
  constructor
  · rintro ⟨a, h⟩
    exact (s.loadSource_of_ofSource hpath h).2
  · rintro ⟨warnings, h⟩
    cases h' : Assembly.ofSource (sourceName literate) source with
    | error errors =>
      rw [s.loadSource_of_eq_error h'] at h
      cases h
    | ok a' =>
      have same := (isLiterate_sourceName literate).trans hpath.symm
      obtain ⟨a, h, -⟩ := Assembly.ofSource_refile same h'
      exact ⟨a, h⟩

end Session

namespace Robot

variable {config : Config} (same : config.slotCount = ({} : Config).slotCount)
include same

/-- A robot that is listened to goes the same. -/
lemma tickTraced_fst (r : Robot) : (r.tickTraced config).1 = (r.tick {}).1 := by
  have e := Machine.driveTraced_mute same r.machine r.body r.devices
  rw [tick, ← e]
  rfl

/-- The robot of a run with its events is the robot of a session that runs as long. -/
lemma foldTicks_fst {σ : Type} (f : σ → List Event → σ) (n : Nat) (s : Session) (acc : σ)
    (last : Option DriveOutcome) :
    (s.robot.foldTicks config f n acc).1 = (Session.runFrom last n s).1.robot := by
  induction n generalizing s acc last with
  | zero => rfl
  | succ n ih =>
    rw [foldTicks, Session.runFrom]
    dsimp only
    rw [tickTraced_fst same]
    exact ih s.tick.1 _ _

end Robot

variable {κ β : Type} [Chassis κ] [Provider β]

/-- Ticks that are traced, or only called so, go as ticks that nobody listens to: the answers, the machine,
the body and the peripherals are the same, as long as the same slots are in reach, and without tracing
there are no events. So the robot of a console run, traced or not, is that of a session which loads the
same source and runs as long. -/
theorem tracing_changes_no_run (config config' : Config)
    (same : config.slotCount = config'.slotCount) :
    (∀ (n : Nat) (r : Rig κ β),
      let traced := r.serveAll config (.replicate n .tickTraced)
      let quiet := r.serveAll config' (.replicate n .tick)
      traced.answers = quiet.answers ∧ traced.rig = quiet.rig) ∧
    (∀ (n : Nat) (r : Rig κ β),
      let traced := r.serveAll config (.replicate n .driveTraced)
      let quiet := r.serveAll config' (.replicate n .drive)
      traced.answers = quiet.answers ∧ traced.rig = quiet.rig) ∧
    (config.tracing = false → ∀ (r : Rig κ β) (requests : List Rig.Request),
      (r.serveAll config requests).events = []) ∧
    (∀ (path source : String) (literate trace : Bool) (count : Nat) (s : Session),
      Source.isLiterate path = literate →
        let loaded := s.loadSource source literate
        let session := (loaded.1.run count).1
        ((∃ a, Assembly.ofSource path source = .ok a) ↔ ∃ warnings, loaded.2 = .ok warnings) ∧
        ∀ a, Assembly.ofSource path source = .ok a →
          (Console.runRobot (.ofMachine a.machine) count trace).1 = session.robot ∧
          ∃ errors, Console.run path count trace (.ok source) =
            .finish { output := Console.summary session.robot count, errors }) := by
  refine ⟨?_, ?_, ?_, ?_⟩
  · intro n r
    have h := Rig.serveAll_quiet same r (.replicate n .tickTraced)
    rwa [List.map_replicate] at h
  · intro n r
    have h := Rig.serveAll_quiet same r (.replicate n .driveTraced)
    rwa [List.map_replicate] at h
  · intro h r requests
    exact Rig.serveAll_events_of_not_tracing h r requests
  · intro path source literate trace count s hpath
    refine ⟨s.exists_ofSource_iff hpath, ?_⟩
    intro a h
    have same : ({ tracing := trace } : Config).slotCount = ({} : Config).slotCount := rfl
    have hrobot : (Console.runRobot (.ofMachine a.machine) count trace).1 =
        ((s.loadSource source literate).1.run count).1.robot := by
      rw [(s.loadSource_of_ofSource hpath h).1]
      exact Robot.foldTicks_fst same _ count (.start a.machine) "" none
    refine ⟨hrobot, ?_⟩
    rw [← hrobot, Console.run, Console.assemble, h]
    exact ⟨_, rfl⟩

/-- A literate source: the robot naps, then counts. -/
def napSource : String := "Rest first.\n```cards\nnap: SLP 1\nADD 2\nJMP nap\n```\n"

/-- The program of `napSource`. -/
def napProgram : Program :=
  ⟨[[⟨.slp, .literal 1, none⟩, ⟨.add, .literal 2, none⟩, ⟨.jmp, .literal 0, none⟩]]⟩

/-- A robot that naps does the same whether the console traces it or a session runs it, and as long as
nobody traces it there are no events. -/
theorem nap_runs_in_lockstep :
    ({ slots := 9 } : Config).slotCount = ({} : Config).slotCount ∧
    ({ slots := 9 } : Config).tracing = false ∧ Source.isLiterate "nap.md" = true ∧
    (({ machine := .ofProgram napProgram, body := {}, devices := oneTimer } :
      Rig PlanarChassis (Bank Timer)).serveAll { slots := 9 } (.replicate 7 .driveTraced)).events = [] ∧
    ∃ a, Assembly.ofSource "nap.md" napSource = .ok a ∧ a.program = napProgram ∧
      (Console.runRobot (.ofMachine a.machine) 7 true).1 =
        ((({} : Session).loadSource napSource true).1.run 7).1.robot := by
  have hprogram : (Assembly.ofSource "nap.md" napSource).toOption.map (·.program) =
      some napProgram := by decide +kernel
  have hpath : Source.isLiterate "nap.md" = true := by decide +kernel
  obtain ⟨-, -, hevents, hrun⟩ :=
    tracing_changes_no_run (κ := PlanarChassis) (β := Bank Timer) { slots := 9 } {} (by decide)
  refine ⟨by decide, rfl, hpath, hevents rfl _ _, ?_⟩
  cases h : Assembly.ofSource "nap.md" napSource with
  | error errors => rw [h] at hprogram; cases hprogram
  | ok a =>
    rw [h] at hprogram
    exact ⟨a, rfl, Option.some.inj hprogram, ((hrun "nap.md" napSource true true 7 {} hpath).2 a h).1⟩

end CardMachine
