import CardMachine.Instruction

/-!
# Programs

A program is a list of cards and a card is a list of instructions. Cards and positions are named by
8-bit pointers, so only the first 256 cards and the first 256 instructions of each can be reached:
`Program.ofCards`, `Program.replaceCard` and `Program.pushCard?` keep exactly those.
-/

namespace CardMachine

/-- A card: instructions in order. -/
abbrev Card := List Instruction

/-- The number of cards, and of positions on a card, that a pointer can name. -/
def addressableLimit : Nat := 256

/-- The number of cards a program should have at most. -/
def recommendedCards : Nat := 16

/-- The number of instructions a card should have at most. -/
def recommendedLength : Nat := 16

/-- Every card and every position can be named by a pointer. -/
def Addressable (cards : List Card) : Prop :=
  cards.length ≤ addressableLimit ∧ ∀ card ∈ cards, card.length ≤ addressableLimit

instance (cards : List Card) : Decidable (Addressable cards) :=
  inferInstanceAs (Decidable (_ ∧ _))

/-- A program: cards in order. -/
structure Program where
  cards : List Card := []
  deriving DecidableEq

/-- Why a card could not be replaced. -/
inductive ProgramError
  /-- There is no card `index` in a program of `count` cards. -/
  | cardOutOfRange (index count : Nat)
  deriving DecidableEq

/-- The wording of a program error. -/
def ProgramError.message : ProgramError → String
  | .cardOutOfRange index count =>
    s!"card index {index} is out of range for a program with {count} cards"

namespace Program

/-- The program of the given cards, less what no pointer can reach. -/
def ofCards (cards : List Card) : Program :=
  ⟨(cards.take addressableLimit).map (·.take addressableLimit)⟩

/-- A program keeps all cards exactly if every position of them can be named. -/
theorem cards_ofCards_eq_iff (cards : List Card) : (ofCards cards).cards = cards ↔ Addressable cards := by
  constructor
  · intro h
    have hlen : cards.length ≤ addressableLimit := by
      have := congrArg List.length h
      simp only [ofCards, List.length_map, List.length_take] at this
      omega
    refine ⟨hlen, fun card hc => ?_⟩
    rw [← h, ofCards] at hc
    obtain ⟨whole, _, rfl⟩ := List.mem_map.1 hc
    exact List.length_take_le _ _
  · rintro ⟨hlen, hcards⟩
    simp only [ofCards, List.take_of_length_le hlen]
    rw [List.map_congr_left fun card hc => List.take_of_length_le (hcards card hc)]
    exact List.map_id' cards

/-- Every position of a program made of cards can be named. -/
theorem addressable_ofCards (cards : List Card) : Addressable (ofCards cards).cards := by
  refine ⟨?_, fun card hc => ?_⟩
  · simp only [ofCards, List.length_map]
    exact List.length_take_le _ _
  · obtain ⟨whole, _, rfl⟩ := List.mem_map.1 hc
    exact List.length_take_le _ _

/-- Has the program no cards? -/
def isEmpty (p : Program) : Bool := p.cards.isEmpty

/-- The number of cards. -/
def cardCount (p : Program) : Nat := p.cards.length

/-- The card `index`; a card that does not exist is empty. -/
def card (p : Program) (index : Nat) : Card :=
  p.cards.getD index []

/-- The length of card `index`. -/
def cardLength (p : Program) (index : Nat) : Nat :=
  (p.card index).length

/-- The instruction at a position. -/
def instruction? (p : Program) (card ip : Nat) : Option Instruction :=
  (p.card card)[ip]?

/-- Replaces a card that exists. A refusal brings no program with it: the one there is stays. -/
def replaceCard (p : Program) (index : Nat) (card : Card) : Except ProgramError Program :=
  if index < p.cardCount then
    .ok ⟨p.cards.set index (card.take addressableLimit)⟩
  else
    .error (.cardOutOfRange index p.cardCount)

/-- Adds a card at the end and tells its index. A full program takes no more, and stays as it is. -/
def pushCard? (p : Program) (card : Card) : Option (Program × Nat) :=
  if p.cardCount < addressableLimit then
    some (⟨p.cards ++ [card.take addressableLimit]⟩, p.cardCount)
  else
    none

/-- Does the program stay within the recommended size? -/
def withinCapacity (p : Program) : Bool :=
  p.cardCount ≤ recommendedCards && p.cards.all (·.length ≤ recommendedLength)

end Program

end CardMachine
