import CardMachine.Peripheral.Basic

/-!
# The host's hand

What a host can do to a machine from outside, one action at a time, and a peripheral made of such
actions.
-/

namespace CardMachine

/-- Something a host does to a machine. -/
inductive HostAction
  | setIp (v : Pointer)
  /-- Sets the card pointer. -/
  | setCard (v : Pointer)
  | setRegister (r : Register) (v : Int)
  /-- Adds to what a register holds. -/
  | addRegister (r : Register) (v : Int)
  /-- Writes the instruction pointer into a register. -/
  | copyIp (r : Register)
  /-- Enters a mode, in its proper form. -/
  | setMode (mode : Mode)
  /-- Puts a mode in as it is. -/
  | writeMode (mode : Mode)
  | canonicalize
  | resume
  | reset
  | load (program : Program)
  | replaceCard (index : Nat) (card : Card)
  | pushCard (card : Card)

/-- What the host hears back. -/
inductive HostAnswer
  | silence
  /-- The card was replaced. -/
  | replaced
  | refused (error : ProgramError)
  /-- The index of the new card, if there was room. -/
  | pushed (index : Option Nat)

/-- Does an action. Where the program does not take a change, the machine is as it was. -/
def HostAction.run (m : Machine) : HostAction → Machine × HostAnswer
  | .setIp v => ({ m with ip := v }, .silence)
  | .setCard v => ({ m with card := v }, .silence)
  | .setRegister r v => (m.setRegister r v, .silence)
  | .addRegister r v => (m.setRegister r ((m.registers.get r).toInt + v), .silence)
  | .copyIp r => (m.setRegister r m.ip.val, .silence)
  | .setMode mode => (m.setMode mode, .silence)
  | .writeMode mode => ({ m with mode }, .silence)
  | .canonicalize => (m.canonicalize, .silence)
  | .resume => (m.resume, .silence)
  | .reset => (m.reset, .silence)
  | .load program => (m.load program, .silence)
  | .replaceCard index card =>
    match m.program.replaceCard index card with
    | .ok program => ({ m with program }, .replaced)
    | .error e => (m, .refused e)
  | .pushCard card =>
    match m.program.pushCard? card with
    | some (program, index) => ({ m with program }, .pushed (some index))
    | none => (m, .pushed none)

/-- Does actions one after the other. -/
def HostAction.runAll (actions : List HostAction) (m : Machine) : Machine :=
  actions.foldl (fun m action => (action.run m).1) m

/-- Which modes a scripted peripheral takes up. -/
inductive ModePattern
  | never
  | always
  /-- The mode whose identifier is written so. -/
  | named (text : String)

/-- Is the mode one of these? -/
def ModePattern.admits (mode : Mode) : ModePattern → Bool
  | .never => false
  | .always => true
  | .named text => mode.id.text = text

/-- A peripheral that does fixed actions and gives fixed answers. -/
structure Script where
  onCall : List HostAction := []
  advance : Bool := true
  pattern : ModePattern := .never
  onOffer : List HostAction := []
  claim : Bool := true

instance : Peripheral Script where
  call s m := ⟨s.advance, s, HostAction.runAll s.onCall m⟩
  offer s m :=
    if s.pattern.admits m.mode then ⟨s.claim, s, HostAction.runAll s.onOffer m⟩ else ⟨false, s, m⟩

end CardMachine
