import CardMachine.Host
import CardMachine.Proofs.Assembly
import CardMachine.Proofs.Snapshot.Clean
import CardMachine.Proofs.Snapshot.Load
import CardMachine.Proofs.WellFormed

/-!
# The reach of a pointer

A pointer names 256 cards and 256 positions on each. Five places hold a program to that, and they agree
on the limit. A program made of cards, and a card that is added or replaced, are cut without a word;
there are refusals too, of a card too many and of one that is not there. A document that is too large is
cut with a warning, and a source that is too large does not assemble.

`Program.Keeps` says what a cut leaves, position by position, and `Program.Puts` what is left when a card
is put in. `Program.Built` collects the ways to make a program, and `built_iff` is the invariant: what can
be made is what can be reached.
-/

namespace CardMachine

namespace Program

/-- `p` has the first 256 cards and the first 256 instructions of each, all where they stood. -/
structure Keeps (p : Program) (cards : List Card) : Prop where
  cardCount : p.cardCount = min cards.length 256
  instruction? (c i : Nat) :
    p.instruction? c i = if c < 256 ∧ i < 256 then cards[c]?.bind (·[i]?) else none

/-- `p'` is `p` with the first 256 instructions of `card` at `index`, and the other cards as they were. -/
structure Puts (p : Program) (index : Nat) (card : Card) (p' : Program) : Prop where
  cardCount : p'.cardCount = max p.cardCount (index + 1)
  instruction? (c i : Nat) :
    p'.instruction? c i =
      if c = index then if i < 256 then card[i]? else none else p.instruction? c i

/-- The programs that can be made. -/
inductive Built : Program → Prop where
  | empty : Built {}
  | ofCards (cards : List Card) : Built (.ofCards cards)
  | replaceCard {p p' : Program} {index : Nat} {card : Card} :
    Built p →
    p.replaceCard index card = .ok p' →
    Built p'
  | pushCard {p p' : Program} {index : Nat} {card : Card} :
    Built p →
    p.pushCard? card = some (p', index) →
    Built p'

/-- An instruction is looked up on its card, if the card is there. -/
lemma instruction?_eq_bind (p : Program) (c i : Nat) :
    p.instruction? c i = p.cards[c]?.bind (·[i]?) := by
  rw [instruction?, card, List.getD_eq_getElem?_getD]
  cases p.cards[c]? with
  | none => exact List.getElem?_nil
  | some card => rfl

/-- A program made of cards keeps what a pointer can name. -/
lemma keeps_ofCards (cards : List Card) : (ofCards cards).Keeps cards := by
  constructor
  case cardCount =>
    rw [cardCount, ofCards, List.length_map, List.length_take, Nat.min_comm]
    rfl
  case instruction? =>
    intro c i
    rw [instruction?_eq_bind, ofCards, List.getElem?_map, List.getElem?_take,
      show addressableLimit = 256 from rfl]
    by_cases hc : c < 256
    · rw [if_pos hc]
      cases cards[c]? with
      | none => simp
      | some whole => simp [hc, List.getElem?_take]
    · simp [hc]

/-- A card is put in where it takes its place among the cards and leaves the others in theirs. -/
lemma puts_of_getElem? {p p' : Program} {index : Nat} {card : Card}
    (hcount : p'.cardCount = max p.cardCount (index + 1))
    (hcards : ∀ c, p'.cards[c]? =
      if c = index then some (card.take addressableLimit) else p.cards[c]?) :
    p.Puts index card p' where
  cardCount := hcount
  instruction? c i := by
    rw [instruction?_eq_bind, instruction?_eq_bind, hcards]
    split
    · exact List.getElem?_take
    · rfl

/-- A card is added exactly if there are fewer than 256, and then it stands at the end. -/
lemma pushCard?_eq_some_iff {p : Program} {card : Card} :
    (∃ taken, p.pushCard? card = some taken) ↔ p.cardCount < 256 := by
  rw [pushCard?]
  split
  · next h => exact iff_of_true ⟨_, rfl⟩ h
  · next h => exact iff_of_false (by rintro ⟨_, ⟨⟩⟩) h

/-- A card that is added gets the next free index, and the other cards stay as they were. -/
lemma puts_of_pushCard? {p p' : Program} {card : Card} {index : Nat}
    (h : p.pushCard? card = some (p', index)) : index = p.cardCount ∧ p.Puts index card p' := by
  rw [pushCard?] at h
  split at h
  case isFalse => cases h
  case isTrue =>
    cases h
    refine ⟨rfl, puts_of_getElem? ?_ fun c => ?_⟩
    · rw [cardCount, cardCount, List.length_append]
      exact (Nat.max_eq_right (Nat.le_succ _)).symm
    · change (p.cards ++ [_])[c]? = if c = p.cards.length then _ else p.cards[c]?
      rcases Nat.lt_trichotomy c p.cards.length with hlt | rfl | hgt
      · rw [List.getElem?_append_left hlt, if_neg (Nat.ne_of_lt hlt)]
      · rw [List.getElem?_concat_length, if_pos rfl]
      · rw [if_neg (Nat.ne_of_gt hgt), List.getElem?_eq_none (Nat.le_of_lt hgt)]
        exact List.getElem?_eq_none (by simpa using hgt)

/-- A card is replaced exactly if it is there. -/
lemma replaceCard_eq_ok_iff {p : Program} {index : Nat} {card : Card} :
    (∃ p', p.replaceCard index card = .ok p') ↔ index < p.cardCount := by
  rw [replaceCard]
  split
  · next h => exact iff_of_true ⟨_, rfl⟩ h
  · next h => exact iff_of_false (by rintro ⟨_, ⟨⟩⟩) h

/-- A card that is replaced leaves the other cards as they were. -/
lemma puts_of_replaceCard {p p' : Program} {index : Nat} {card : Card}
    (h : p.replaceCard index card = .ok p') : p.Puts index card p' := by
  rw [replaceCard] at h
  split at h
  case isFalse => cases h
  case isTrue hlt =>
    cases h
    refine puts_of_getElem? ?_ fun c => ?_
    · rw [cardCount, List.length_set]
      exact (Nat.max_eq_left hlt).symm
    · rw [cardCount] at hlt
      rw [List.getElem?_set, if_pos hlt]
      simp only [eq_comm]

/-- The operations build the programs that are addressable, and no others. -/
lemma built_iff {p : Program} : p.Built ↔ Addressable p.cards := by
  constructor
  · intro h
    induction h with
    | empty => exact Snapshot.addressable_default
    | ofCards cards => exact addressable_ofCards cards
    | replaceCard _ e ih => exact ih.replaceCard e
    | pushCard _ e ih => exact ih.pushCard e
  · intro h
    have hcards : ofCards p.cards = p := congrArg mk ((cards_ofCards_eq_iff p.cards).2 h)
    exact hcards ▸ .ofCards p.cards

end Program

/-- The host is told that nothing was done. -/
inductive HostAnswer.Declines : HostAnswer → Prop where
  | refused (error : ProgramError) : Declines (.refused error)
  | full : Declines (.pushed none)

namespace HostAction

/-- An action leaves a program that can be made, if it finds one and brings none but such. -/
lemma run_built {m : Machine} {action : HostAction} (h : m.program.Built)
    (hload : ∀ program, action = .load program → program.Built) :
    (action.run m).1.program.Built := by
  cases action with
  | load program => exact hload program rfl
  | replaceCard index card =>
    rw [run]
    split
    · next e => exact h.replaceCard e
    · exact h
  | pushCard card =>
    rw [run]
    split
    · next e => exact h.pushCard e
    · exact h
  | _ => exact h

/-- A host keeps a program built, if it loads none that is not. -/
lemma runAll_built {actions : List HostAction} {m : Machine} (h : m.program.Built)
    (hload : ∀ program, .load program ∈ actions → program.Built) :
    (runAll actions m).program.Built := by
  induction actions generalizing m with
  | nil => exact h
  | cons action rest ih =>
    refine ih (run_built h fun program e => ?_) fun program hmem => ?_
    · exact hload program (e ▸ List.mem_cons_self)
    · exact hload program (List.mem_cons_of_mem action hmem)

/-- A change that the host is refused changes nothing. -/
lemma run_of_declines {m : Machine} {action : HostAction} (h : (action.run m).2.Declines) :
    (action.run m).1 = m := by
  cases action with
  | replaceCard index card =>
    rw [run] at h ⊢
    split
    · next e => rw [e] at h; cases h
    · rfl
  | pushCard card =>
    rw [run] at h ⊢
    split
    · next e => rw [e] at h; cases h
    · rfl
  | _ => cases h

end HostAction

namespace Snapshot

/-- `item` is read as the instruction `i`: it names the opcode, and what it says of argument and flag
counts as far as it makes sense. -/
structure Reads (item : Json) (i : Instruction) : Prop where
  opcode : item.field? "opcode" = some (.string i.opcode.mnemonic)
  argument : i.argument = (decodeArgument? (item.field? "argument")).getD (.literal 0)
  flag : i.flag = (decodeFlag (item.field? "flag")).1

/-- `raw` is read as the card `card`, item by item. -/
def ReadsCard (raw : Json) (card : Card) : Prop :=
  ∃ items, raw = .array items ∧ List.Forall₂ Reads items card

/-- The cards of a document are all read, and come to `cards`. -/
def HasCards (doc : Json) (cards : List Card) : Prop :=
  ∃ raws, doc.field? "cards" = some (.array raws) ∧ List.Forall₂ ReadsCard raws cards

/-- An instruction is decoded exactly from the items that say it. -/
lemma decodeInstruction_eq_some_iff {card index : Nat} {item : Json} {i : Instruction} :
    (decodeInstruction card item index).value = some i ↔ Reads item i := by
  rw [decodeInstruction]
  constructor
  · intro h
    dsimp only at h
    split at h
    · cases h
    · next opcode hop =>
      cases h
      exact ⟨ofMnemonic?_field_eq_some_iff.1 hop, rfl, rfl⟩
  · rintro ⟨hopcode, hargument, hflag⟩
    rw [ofMnemonic?_field_eq_some_iff.2 hopcode]
    obtain ⟨opcode, argument, flag⟩ := i
    cases hargument
    cases hflag
    rfl

/-- A list is decoded item by item, and only if every item is. -/
lemma decodeAll_eq_some_iff {α : Type} {f : Json → Nat → Decoded (Option α)} {Says : Json → α → Prop}
    (h : ∀ raw index a, (f raw index).value = some a ↔ Says raw a) {raws : List Json} {index : Nat}
    {as : List α} : (decodeAll f index raws).value = some as ↔ List.Forall₂ Says raws as := by
  induction raws generalizing index as with
  | nil =>
    rw [List.forall₂_nil_left_iff, decodeAll, Option.some.injEq, eq_comm]
  | cons raw rest ih =>
    rw [decodeAll, List.forall₂_cons_left_iff]
    cases hfirst : (f raw index).value with
    | none =>
      constructor
      · intro hnone
        cases hnone
      · rintro ⟨a, _, hsays, -⟩
        rw [(h raw index a).2 hsays] at hfirst
        cases hfirst
    | some a =>
      simp only [Option.map_eq_some_iff, ih]
      constructor
      · rintro ⟨others, hothers, rfl⟩
        exact ⟨a, others, (h raw index a).1 hfirst, hothers, rfl⟩
      · rintro ⟨a', others, hsays, hothers, rfl⟩
        cases hfirst.symm.trans ((h raw index a').2 hsays)
        exact ⟨others, hothers, rfl⟩

/-- A card is decoded exactly from the lists that say its instructions. -/
lemma decodeCard_eq_some_iff {raw : Json} {index : Nat} {card : Card} :
    (decodeCard raw index).value = some card ↔ ReadsCard raw card := by
  rw [decodeCard, ReadsCard]
  cases raw with
  | array items =>
    simpa [Json.array?] using decodeAll_eq_some_iff (f := decodeInstruction index)
      fun _ _ _ => decodeInstruction_eq_some_iff
  | _ => simp [Json.array?]

/-- Cards are decoded exactly from the lists that say them one by one. -/
lemma decodeAll_decodeCard_eq_some_iff {raws : List Json} {cards : List Card} :
    (decodeAll decodeCard 0 raws).value = some cards ↔ List.Forall₂ ReadsCard raws cards :=
  decodeAll_eq_some_iff (f := decodeCard) fun _ _ _ => decodeCard_eq_some_iff

section Silence

/-!
Only the program can be too large: no other part of a document is told to be.
-/

variable {fields : Fields}

/-- A list does not warn about the size of the program if its items do not. -/
lemma unaddressable_not_mem_decodeAll {α : Type} {f : Json → Nat → Decoded (Option α)}
    (h : ∀ raw index, .unaddressable ∉ (f raw index).warnings) (raws : List Json) (index : Nat) :
    .unaddressable ∉ (decodeAll f index raws).warnings := by
  induction raws generalizing index with
  | nil => exact List.not_mem_nil
  | cons raw rest ih =>
    rw [decodeAll]
    dsimp only
    split
    · exact h raw index
    · rw [List.mem_append, not_or]
      exact ⟨h raw index, ih (index + 1)⟩

/-- A card does not warn about the size of the program: its own length is not looked at. -/
lemma unaddressable_not_mem_decodeCard (raw : Json) (index : Nat) :
    .unaddressable ∉ (decodeCard raw index).warnings := by
  rw [decodeCard]
  split
  · simp
  · refine unaddressable_not_mem_decodeAll (fun item i => ?_) _ 0
    rw [decodeInstruction]
    dsimp only
    split
    · simp
    · grind

/-- The other parts of a document say nothing of the size of the program, as here the version. -/
lemma unaddressable_not_mem_decodeVersion : .unaddressable ∉ decodeVersion fields := by
  rw [decodeVersion]
  repeat' split
  all_goals simp

lemma unaddressable_not_mem_decodePointer (field : String) :
    .unaddressable ∉ (decodePointer fields field).warnings := by
  rw [decodePointer]
  repeat' split
  all_goals simp

lemma unaddressable_not_mem_decodeRegisters : .unaddressable ∉ (decodeRegisters fields).warnings := by
  have hnext (entries : Fields) (rs : List Register) (d : Decoded Registers)
      (h : .unaddressable ∉ d.warnings) :
      .unaddressable ∉ (rs.foldl (decodeNextRegister entries) d).warnings := by
    induction rs generalizing d with
    | nil => exact h
    | cons r rest ih =>
      refine ih _ ?_
      rw [decodeNextRegister, List.mem_append, not_or]
      refine ⟨h, ?_⟩
      rw [decodeRegister]
      repeat' split
      all_goals simp
  rw [decodeRegisters]
  repeat' split
  · simp
  · simp
  · exact hnext _ _ _ List.not_mem_nil

lemma unaddressable_not_mem_decodeData : .unaddressable ∉ (decodeData fields).warnings := by
  have hnext (entries : Fields) (d : Decoded ModeData) (h : .unaddressable ∉ d.warnings) :
      .unaddressable ∉ (entries.foldl decodeNextEntry d).warnings := by
    induction entries generalizing d with
    | nil => exact h
    | cons entry rest ih =>
      refine ih _ ?_
      rw [decodeNextEntry]
      split <;> simp [h]
  rw [decodeData]
  repeat' split
  · simp
  · simp
  · exact hnext _ _ List.not_mem_nil

lemma unaddressable_not_mem_decodeModeId : .unaddressable ∉ (decodeModeId fields).warnings := by
  rw [decodeModeId]
  repeat' split
  all_goals simp

end Silence

/-- The program of a document whose cards are all read is made of them, and they are told to be too
large exactly if they are. -/
lemma decodeProgram_of_hasCards {fields : Fields} {cards : List Card}
    (h : HasCards (.object fields) cards) :
    (decodeProgram fields).value = .ofCards cards ∧
      (.unaddressable ∈ (decodeProgram fields).warnings ↔ ¬ Addressable cards) := by
  obtain ⟨raws, hraws, hcards⟩ := h
  have hlookup : fields.lookup "cards" = some (.array raws) := hraws
  have hread := decodeAll_decodeCard_eq_some_iff.2 hcards
  have hsilent := unaddressable_not_mem_decodeAll unaddressable_not_mem_decodeCard raws 0
  rw [decodeProgram, hlookup]
  dsimp only [Json.array?]
  rw [hread]
  refine ⟨rfl, ?_⟩
  dsimp only
  rw [List.mem_append, or_iff_right hsilent]
  split <;> simp [*]

/-- The warning about the size of the program comes of cards that were all decoded. -/
lemma exists_hasCards_of_unaddressable {fields : Fields}
    (h : .unaddressable ∈ (decodeProgram fields).warnings) :
    ∃ cards, HasCards (.object fields) cards := by
  rw [decodeProgram] at h
  split at h
  · cases h
  next raw hlookup =>
  split at h
  · simp at h
  next raws hraws =>
  dsimp only at h
  split at h
  · exact absurd h (unaddressable_not_mem_decodeAll unaddressable_not_mem_decodeCard raws 0)
  next cards hread =>
  refine ⟨cards, raws, ?_, decodeAll_decodeCard_eq_some_iff.1 hread⟩
  cases raw with
  | array items => cases hraws; exact hlookup
  | _ => cases hraws

/-- The warning about its size is for documents whose cards can all be read and are too many or too
long. -/
lemma unaddressable_mem_decode_iff {doc : Json} :
    .unaddressable ∈ (decode doc).warnings ↔ ∃ cards, HasCards doc cards ∧ ¬ Addressable cards := by
  cases doc with
  | object fields =>
    have hprogram : .unaddressable ∈ (decode (.object fields)).warnings ↔
        .unaddressable ∈ (decodeProgram fields).warnings := by
      simp only [decode, Json.object?, decodeFields, List.mem_append,
        unaddressable_not_mem_decodeVersion, unaddressable_not_mem_decodePointer,
        unaddressable_not_mem_decodeRegisters, unaddressable_not_mem_decodeData,
        unaddressable_not_mem_decodeModeId, or_false, false_or]
    rw [hprogram]
    constructor
    · intro h
      obtain ⟨cards, hcards⟩ := exists_hasCards_of_unaddressable h
      exact ⟨cards, hcards, (decodeProgram_of_hasCards hcards).2.1 h⟩
    · rintro ⟨cards, hcards, hlarge⟩
      exact (decodeProgram_of_hasCards hcards).2.2 hlarge
  | _ =>
    constructor
    · intro h
      simp [decode, Json.object?] at h
    · rintro ⟨cards, ⟨raws, ⟨⟩, -⟩, -⟩

/-- A document with cards leaves of them what a pointer can name. -/
lemma decode_keeps {doc : Json} {cards : List Card} (h : HasCards doc cards) :
    (decode doc).value.program.Keeps cards := by
  cases doc with
  | object fields =>
    have hprogram : (decode (.object fields)).value.program = .ofCards cards :=
      (decodeProgram_of_hasCards h).1
    rw [hprogram]
    exact Program.keeps_ofCards cards
  | _ => obtain ⟨raws, ⟨⟩, -⟩ := h

end Snapshot

namespace Layout

/-- Every card and every position of a layout can be named by a pointer. -/
def Addressable (layout : Layout) : Prop :=
  layout.cards.length ≤ 256 ∧ ∀ c ∈ layout.cards, c.instructions.length ≤ 256

/-- `p` has every card and every instruction of a layout where they were laid. -/
structure AllIn (layout : Layout) (p : Program) : Prop where
  cardCount : p.cardCount = layout.cards.length
  cardLength {n : Nat} {c : CardLayout} (hc : layout.cards[n]? = some c) :
    p.cardLength n = c.instructions.length
  instruction? {n i : Nat} {c : CardLayout} {placed : PlacedInstruction}
    (hc : layout.cards[n]? = some c) (hi : c.instructions[i]? = some placed) :
    ∃ argument, p.instruction? n i = some ⟨placed.written.opcode, argument, placed.written.flag⟩

end Layout

namespace Assembly

/-- The fault is a card or an instruction that no pointer can name. -/
inductive Fault.Unaddressable : Fault → Prop where
  | card (card : Nat) : Unaddressable (.unaddressableCard card)
  | instruction (card index : Nat) : Unaddressable (.unaddressableInstruction card index)

/-- The check of the size finds nothing but what is too large. -/
lemma unaddressable_of_mem {file : String} {layout : Layout} {e : Error}
    (h : e ∈ unaddressable file layout) : e.fault.Unaddressable := by
  rw [unaddressable, List.mem_append] at h
  rcases h with h | h
  · split at h
    · rw [List.mem_singleton.1 h]
      exact .card _
    · cases h
  · obtain ⟨⟨c, card⟩, -, hplaced⟩ := List.mem_filterMap.1 h
    obtain ⟨placed, -, rfl⟩ := Option.map_eq_some_iff.1 hplaced
    exact .instruction _ _

/-- To resolve a layout finds fault with names and numbers, never with sizes. -/
lemma not_unaddressable_of_resolveAll {file : String} {layout : Layout} {errors : List Error}
    (h : resolveAll file layout = .error errors) {e : Error} (he : e ∈ errors) :
    ¬ e.fault.Unaddressable := by
  obtain ⟨rfl, -⟩ := resolveAll_eq_error_iff.1 h
  obtain ⟨result, hresult, hbad⟩ := List.mem_filterMap.1 he
  obtain ⟨⟨c, card⟩, -, hcard⟩ := List.mem_flatMap.1 hresult
  obtain ⟨⟨placed, index⟩, -, rfl⟩ := List.mem_map.1 hcard
  dsimp only at hbad
  rw [resolveEntry] at hbad
  split at hbad
  · cases hbad
    rintro ⟨⟩
  · cases hbad

/-- A source whose lines are laid out fails for want of pointers exactly if it has more than they can
name. -/
lemma fails_unaddressable_iff {path content : String} {lines : List NumberedLine} {layout : Layout}
    (hread : (Source.extract path content).map (readLine path) = lines.map .ok)
    (hlayout : Layout.ofLines lines = .ok layout) :
    (∃ errors, ofSource path content = .error errors ∧ ∃ e ∈ errors, e.fault.Unaddressable) ↔
      ¬ layout.Addressable := by
  have hnil : unaddressable path layout = [] ↔ layout.Addressable := unaddressable_eq_nil_iff
  rw [ofSource, ofLines_of_layout hread hlayout, ← hnil]
  split
  · next hbeyond =>
    refine iff_of_false ?_ (not_not_intro hbeyond)
    rintro ⟨errors, herrors, e, he, hfault⟩
    cases hall : resolveAll path layout with
    | ok cards => rw [hall] at herrors; cases herrors
    | error errors' =>
      rw [hall] at herrors
      cases herrors
      exact not_unaddressable_of_resolveAll hall he hfault
  · next hbeyond =>
    refine iff_of_true ?_ hbeyond
    obtain ⟨e, he⟩ := List.exists_mem_of_ne_nil _ hbeyond
    exact ⟨_, rfl, e, he, unaddressable_of_mem he⟩

/-- A source that assembles was small enough, and all its instructions are in the program. -/
lemma allIn_of_ofSource {path content : String} {lines : List NumberedLine} {layout : Layout}
    {a : Assembly} (hread : (Source.extract path content).map (readLine path) = lines.map .ok)
    (hlayout : Layout.ofLines lines = .ok layout) (h : ofSource path content = .ok a) :
    layout.Addressable ∧ layout.AllIn a.program := by
  rw [ofSource, ofLines_of_layout hread hlayout] at h
  split at h
  · next hbeyond =>
    cases hcards : resolveAll path layout with
    | error errors => rw [hcards] at h; cases h
    | ok cards =>
      rw [hcards] at h
      cases h
      refine ⟨unaddressable_eq_nil_iff.1 hbeyond, cardCount_eq hbeyond hcards, ?_, ?_⟩
      · intro n c hc
        obtain ⟨entries, hcard, hresolve⟩ := card_eq hbeyond hcards hc
        rw [Program.cardLength, hcard, List.length_map, length_entries hresolve]
      · intro n i c placed hc hi
        obtain ⟨argument, -, hinstruction⟩ := instruction?_eq hbeyond hcards hc hi
        exact ⟨argument, hinstruction⟩
  · cases h

end Assembly

/-- All that limits the size of a program agrees on the limit. A program made of cards and a card that is
put in are cut without a word, a document is cut with a warning, and a source is not cut but fails. -/
theorem size_limits_agree :
    -- a program is cut exactly if it has to be, and keeps all that a pointer can name
    (∀ cards : List Card,
      ((Program.ofCards cards).cards = cards ↔ Addressable cards) ∧
        (Program.ofCards cards).Keeps cards) ∧
    -- no way of making or changing a program leads past the limit
    (∀ p : Program, p.Built ↔ Addressable p.cards) ∧
    (∀ (actions : List HostAction) (m : Machine),
      m.program.Built → (∀ program, .load program ∈ actions → program.Built) →
        Addressable (HostAction.runAll actions m).program.cards) ∧
    -- a change that is declined comes without a program, and so the machine keeps all it has
    (∀ (action : HostAction) (m : Machine), (action.run m).2.Declines → (action.run m).1 = m) ∧
    -- a card is added to fewer than 256, or replaced if it is there; what does not fit of it is cut off
    (∀ (p : Program) (card : Card),
      ((∃ taken, p.pushCard? card = some taken) ↔ p.cardCount < 256) ∧
      (∀ p' index, p.pushCard? card = some (p', index) →
        index = p.cardCount ∧ p.Puts index card p') ∧
      ∀ index, ((∃ p', p.replaceCard index card = .ok p') ↔ index < p.cardCount) ∧
        ∀ p', p.replaceCard index card = .ok p' → p.Puts index card p') ∧
    -- a document is cut in the same way, and tells so
    (∀ doc : Json,
      (.unaddressable ∈ (Snapshot.decode doc).warnings ↔
        ∃ cards, Snapshot.HasCards doc cards ∧ ¬ Addressable cards) ∧
      ∀ cards, Snapshot.HasCards doc cards → (Snapshot.decode doc).value.program.Keeps cards) ∧
    -- a source is not cut: it assembles whole or fails
    (∀ (path content : String) (lines : List NumberedLine) (layout : Layout),
      (Source.extract path content).map (Assembly.readLine path) = lines.map .ok →
      Layout.ofLines lines = .ok layout →
        ((∃ errors, Assembly.ofSource path content = .error errors ∧
            ∃ e ∈ errors, e.fault.Unaddressable) ↔ ¬ layout.Addressable) ∧
        ∀ a, Assembly.ofSource path content = .ok a →
          layout.Addressable ∧ layout.AllIn a.program) := by
  refine ⟨fun cards => ?_, fun p => Program.built_iff, fun actions m h hload => ?_,
    fun action m => HostAction.run_of_declines, fun p card => ?_, fun doc => ?_,
    fun path content lines layout hread hlayout => ?_⟩
  · exact ⟨Program.cards_ofCards_eq_iff cards, Program.keeps_ofCards cards⟩
  · exact Program.built_iff.1 (HostAction.runAll_built h hload)
  · exact ⟨Program.pushCard?_eq_some_iff, fun p' index => Program.puts_of_pushCard?,
      fun index => ⟨Program.replaceCard_eq_ok_iff, fun p' => Program.puts_of_replaceCard⟩⟩
  · exact ⟨Snapshot.unaddressable_mem_decode_iff, fun cards => Snapshot.decode_keeps⟩
  · exact ⟨Assembly.fails_unaddressable_iff hread hlayout,
      fun a => Assembly.allIn_of_ofSource hread hlayout⟩

/-- Changes to a program, some of which ask for too much. -/
def greedyActions : List HostAction :=
  [.pushCard (List.replicate 257 ⟨.mov, .literal 1, none⟩), .replaceCard 1 [],
    .load (.ofCards (List.replicate 256 [])), .pushCard []]

/-- A document with one card too many. -/
def crowdedDocument : Json :=
  .object [("cards", .array (List.replicate 257 (.array [])))]

/-- A source that fits. -/
def roomySource : String := "LDA 3\n.card rest"

/-- The lines of `roomySource`. -/
def roomyLines : List NumberedLine :=
  [⟨1, .instruction none ⟨none, .lda, .literal 3, 5⟩⟩, ⟨2, .card (some "rest")⟩]

/-- The limit holds in greedy hands, a document with one card too many is cut with a warning, and a
source that fits is not. -/
theorem greedyActions_stay_in_reach :
    Addressable (HostAction.runAll greedyActions {}).program.cards ∧
      .unaddressable ∈ (Snapshot.decode crowdedDocument).warnings ∧
      (Snapshot.decode crowdedDocument).value.program.cardCount = 256 ∧
      ∃ layout a, Layout.ofLines roomyLines = .ok layout ∧
        Assembly.ofSource "roomy.cards" roomySource = .ok a ∧ layout.AllIn a.program := by
  obtain ⟨-, -, hactions, -, -, hdocument, hsource⟩ := size_limits_agree
  have hread (n : Nat) :
      List.Forall₂ Snapshot.ReadsCard (List.replicate n (.array [])) (List.replicate n []) := by
    induction n with
    | zero => exact .nil
    | succ n ih => exact .cons ⟨[], rfl, .nil⟩ ih
  have hcards : Snapshot.HasCards crowdedDocument (List.replicate 257 []) := ⟨_, rfl, hread 257⟩
  have hlarge : ¬ Addressable (List.replicate 257 []) := by
    rintro ⟨hcount, -⟩
    rw [List.length_replicate] at hcount
    exact absurd hcount (by decide)
  obtain ⟨hwarned, hkept⟩ := hdocument crowdedDocument
  refine ⟨hactions greedyActions {} .empty fun program hload => ?_, hwarned.2 ⟨_, hcards, hlarge⟩,
    ?_, ?_⟩
  · simp only [greedyActions, List.mem_cons, List.not_mem_nil, HostAction.load.injEq, reduceCtorEq,
      or_false, false_or] at hload
    exact hload ▸ .ofCards _
  · rw [(hkept _ hcards).cardCount, List.length_replicate]
    rfl
  · have hlines : (Source.extract "roomy.cards" roomySource).map (Assembly.readLine "roomy.cards") =
        roomyLines.map .ok := by decide +kernel
    have hlaid : (Layout.ofLines roomyLines).toOption.isSome := by decide +kernel
    have hok : (Assembly.ofSource "roomy.cards" roomySource).toOption.isSome := by decide +kernel
    cases hlayout : Layout.ofLines roomyLines with
    | error e => rw [hlayout] at hlaid; cases hlaid
    | ok layout =>
      cases ha : Assembly.ofSource "roomy.cards" roomySource with
      | error errors => rw [ha] at hok; cases hok
      | ok a =>
        obtain ⟨-, hwhole⟩ := hsource "roomy.cards" roomySource roomyLines layout hlines hlayout
        exact ⟨layout, a, rfl, rfl, (hwhole a ha).2⟩

end CardMachine
