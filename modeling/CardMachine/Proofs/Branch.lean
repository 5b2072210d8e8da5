import CardMachine.Proofs.Assembly
import CardMachine.Proofs.Place
import CardMachine.Proofs.Semantics

/-!
# Branches go where their names stand

A name in a branch is resolved by the assembler and followed by the machine, and the two meet at the
count of lines (`cardOf`, `positionOf`). `BranchesFollow` says it of a whole program: a jump goes to
the one line of its card with the label it names, a change of card goes to the card opened by the one
line with the name it names, whatever the registers and the mode hold, and nothing else changes.

The machine takes a branch with a value for its argument to the place its opcode means
(`leads_of_literal`). The assembler gives it the value that makes this the place of the name
(`Layout.place_of_label`, `Layout.place_of_cardName`), and a name has one place (`exists_labelledAt`,
`exists_openedAt`).
-/

namespace CardMachine

/-- What the instruction at position `i` of the current card makes of a machine, if it is the one that
runs. -/
def Machine.runAt (m : Machine) (i : Nat) : Option Machine :=
  (m.program.instruction? m.card i).map fun instruction =>
    m.commit (m.dispatch instruction (.narrow i))

/-- The instruction at position `i` of card `c` takes every machine to position `ip` of card `card`, and
changes nothing else. -/
def Leads (p : Program) (c i card ip : Nat) : Prop :=
  ∀ m : Machine, m.program = p → m.card.val = c →
    ∃ card' ip' : Pointer, card'.val = card ∧ ip'.val = ip ∧
      m.runAt i = some { m with card := card', ip := ip' }

/-- The line at `q`, on card `c`, puts the label `name` on its position. -/
def LabelledAt (lines : List NumberedLine) (c : Nat) (name : String) (q : Nat) : Prop :=
  cardOf lines q = c ∧ ∃ number, lines[q]? = some ⟨number, .label name⟩ ∨
    ∃ written, lines[q]? = some ⟨number, .instruction (some name) written⟩

/-- The line at `q` opens the card `name`. -/
def OpenedAt (lines : List NumberedLine) (name : String) (q : Nat) : Prop :=
  ∃ number, lines[q]? = some ⟨number, .card (some name)⟩

/-- The branches of a program go where the names in its lines stand. -/
structure BranchesFollow (lines : List NumberedLine) (p : Program) : Prop where
  /-- An instruction stands on the card, and at the position, that the lines before it count. -/
  instruction {k number : Nat} {label : Option String} {written : WrittenInstruction}
    (hk : lines[k]? = some ⟨number, .instruction label written⟩) :
    ∃ argument, p.instruction? (cardOf lines k) (positionOf lines k) =
      some ⟨written.opcode, argument, written.flag⟩
  /-- One line of the card has the label that a jump names. The jump leads to the instruction after the
  label, and to the start of the card if there is none. -/
  jump {k number : Nat} {label : Option String} {written : WrittenInstruction} {name : String}
    (hk : lines[k]? = some ⟨number, .instruction label written⟩)
    (hop : written.opcode = .jmp ∨ written.opcode = .jby) (hname : written.operand = .symbol name) :
    ∃ q, (∀ q', LabelledAt lines (cardOf lines k) name q' ↔ q' = q) ∧
      Leads p (cardOf lines k) (positionOf lines k) (cardOf lines k)
        (if positionOf lines q < p.cardLength (cardOf lines k) then positionOf lines q else 0)
  /-- Jumps to one label from anywhere on a card do the same. -/
  jump_eq {k k' number number' : Nat} {label label' : Option String}
    {written written' : WrittenInstruction} {name : String}
    (hk : lines[k]? = some ⟨number, .instruction label written⟩)
    (hop : written.opcode = .jmp ∨ written.opcode = .jby) (hname : written.operand = .symbol name)
    (hk' : lines[k']? = some ⟨number', .instruction label' written'⟩)
    (hop' : written'.opcode = .jmp ∨ written'.opcode = .jby)
    (hname' : written'.operand = .symbol name) (hcard : cardOf lines k' = cardOf lines k)
    {m : Machine} (hm : m.program = p) (hc : m.card.val = cardOf lines k) :
    m.runAt (positionOf lines k') = m.runAt (positionOf lines k)
  /-- One line opens the card that a change of card names. The change leads to the start of that card,
  or to the same position on it. -/
  change {k number : Nat} {label : Option String} {written : WrittenInstruction} {name : String}
    (hk : lines[k]? = some ⟨number, .instruction label written⟩)
    (hop : written.opcode = .crd ∨ written.opcode = .crj) (hname : written.operand = .symbol name) :
    ∃ q, (∀ q', OpenedAt lines name q' ↔ q' = q) ∧
      Leads p (cardOf lines k) (positionOf lines k) (cardOf lines q)
        (if written.opcode = .crd then 0
          else Semantics.wrapped (positionOf lines k) (p.cardLength (cardOf lines q)))

namespace Machine

/-- A branch changes the place and nothing else. -/
lemma commit_of_controlFlow (m : Machine) {i : Instruction}
    (h : i.opcode.opcodeClass = .controlFlow) (position : Pointer) :
    m.commit (m.dispatch i position) =
      { m with
        card := (m.commit (m.dispatch i position)).card
        ip := (m.commit (m.dispatch i position)).ip } := by
  have hregisters : (m.commit (m.dispatch i position)).registers = m.registers := by
    rw [commit_registers, dispatch]
    cases hop : i.opcode <;> rw [hop] at h <;> try cases h
    case crd | crj => dsimp only; rw [changeCard]; split <;> rfl
    all_goals rfl
  have hmode : (m.commit (m.dispatch i position)).mode = m.mode := by
    rw [Semantics.commit_mode_eq]
    cases hop : i.opcode <;> rw [hop] at h <;> first | rfl | cases h
  have hprogram := commit_program m (m.dispatch i position)
  generalize m.commit (m.dispatch i position) = m' at hregisters hmode hprogram ⊢
  obtain ⟨ip, card, _, _, _⟩ := m'
  cases hregisters
  cases hmode
  cases hprogram
  rfl

end Machine

namespace Program

/-- An instruction stands on its card. -/
lemma lt_cardLength_of_instruction? {p : Program} {c i : Nat} {instruction : Instruction}
    (h : p.instruction? c i = some instruction) : i < p.cardLength c :=
  (List.getElem?_eq_some_iff.1 h).1

/-- An instruction stands on a card that is there. -/
lemma lt_cardCount_of_instruction? {p : Program} {c i : Nat} {instruction : Instruction}
    (h : p.instruction? c i = some instruction) : c < p.cardCount := by
  by_contra hge
  have hlt := lt_cardLength_of_instruction? h
  rw [cardLength, card, List.getD_eq_getElem?_getD, List.getElem?_eq_none (Nat.not_lt.1 hge)] at hlt
  cases hlt

end Program

/-- A branch with a value for its argument leads to the place that the opcode means. -/
lemma leads_of_literal {p : Program} (hp : Addressable p.cards) {c i : Nat} {opcode : Opcode}
    {w : Word} {flag : Option Flag} (hi : p.instruction? c i = some ⟨opcode, .literal w, flag⟩)
    (hop : opcode.opcodeClass = .controlFlow) {card ip : Nat}
    (hplace : Semantics.place p c i w.toInt opcode = (card, ip)) : Leads p c i card ip := by
  rintro m rfl rfl
  have h := Semantics.commit_place hp (Program.lt_cardCount_of_instruction? hi)
    (Program.lt_cardLength_of_instruction? hi) ⟨opcode, .literal w, flag⟩
  obtain ⟨hcard, hip⟩ := Prod.mk.inj (h.trans hplace)
  refine ⟨_, _, hcard, hip, ?_⟩
  rw [Machine.runAt, hi, Option.map_some, ← Machine.commit_of_controlFlow m hop]

/-- A label is a line of the card that writes it, alone or in front of an instruction. -/
lemma labelledAt_iff {lines : List NumberedLine} {c q : Nat} {name : String} :
    LabelledAt lines c name q ↔
      cardOf lines q = c ∧ ∃ l, lines[q]? = some l ∧ l.line.label? = some name := by
  refine and_congr_right fun _ => ⟨?_, ?_⟩
  · rintro ⟨number, h | ⟨written, h⟩⟩
    · exact ⟨_, h, rfl⟩
    · exact ⟨_, h, rfl⟩
  · rintro ⟨⟨number, line⟩, hl, hlabel⟩
    cases line with
    | blank => cases hlabel
    | card _ => cases hlabel
    | label _ => cases hlabel; exact ⟨number, .inl hl⟩
    | instruction _ written => cases hlabel; exact ⟨number, .inr ⟨written, hl⟩⟩

/-- A label that the layout of a card knows stands on one line of the card. -/
lemma exists_labelledAt {lines : List NumberedLine} {k : Nat} {l : NumberedLine}
    (hl : lines[k]? = some l) (hcard : l.opensCard = false) (hblank : l.line ≠ .blank) {s : Section}
    {start : Nat} (span : Section.Spans lines s.body (openedBefore lines k) start)
    {labels : SymbolTable} (hlabels : Layout.collectLabels [] 0 s.body = .ok labels) {name : String}
    {symbol : Symbol} (hlookup : labels.lookup name = some symbol) :
    ∃ q, (∀ q', LabelledAt lines (cardOf lines k) name q' ↔ q' = q) ∧
      symbol.index = positionOf lines q := by
  obtain ⟨j, hindex, honly⟩ := Layout.lookup_collectLabels hlabels hlookup
  obtain ⟨lj, hlj, hlabel⟩ := (honly j).2 rfl
  obtain ⟨hq, hcardj, hopened, hearlier⟩ := span.inside hlj
  have hplain {l' : NumberedLine} (h : l'.line.label? = some name) :
      l'.opensCard = false ∧ l'.line ≠ .blank := by
    obtain ⟨number, line⟩ := l'
    cases line with
    | blank => cases h
    | card _ => cases h
    | label _ => exact ⟨rfl, nofun⟩
    | instruction _ _ => exact ⟨rfl, nofun⟩
  refine ⟨start + j, fun q' => ?_, by rw [hindex, positionOf, hearlier]⟩
  rw [labelledAt_iff]
  constructor
  · rintro ⟨hc, l', hl', hlabel'⟩
    obtain ⟨hcard', hblank'⟩ := hplain hlabel'
    have hsame := (Section.cardOf_eq_iff hl' hl (hcard'.trans hcard.symm) hblank' hblank).1 hc
    obtain ⟨j', rfl, hj'⟩ := span.only hl' hcard' hsame
    rw [(honly j').1 ⟨l', hj', hlabel'⟩]
  · rintro rfl
    refine ⟨?_, lj, hq, hlabel⟩
    exact (Section.cardOf_eq_iff hq hl (hcardj.trans hcard.symm) (hplain hlabel).2 hblank).2 hopened

/-- A name that the layout knows for a card is on the one line that opens it. -/
lemma exists_openedAt {lines : List NumberedLine} {names : SymbolTable}
    (h : Layout.defineAll .duplicateCard [] (Layout.nameEntries 0 (Section.ofLines lines)) = .ok names)
    {name : String} {symbol : Symbol} (hlookup : names.lookup name = some symbol) :
    ∃ q, (∀ q', OpenedAt lines name q' ↔ q' = q) ∧ symbol.index = cardOf lines q := by
  have hsection (j : Nat) := (Layout.lookup_nameEntries h hlookup j).symm.trans Section.exists_name_iff
  obtain ⟨q, number, hq, hc⟩ := (hsection symbol.index).1 rfl
  refine ⟨q, fun q' => ⟨?_, ?_⟩, hc.symm⟩
  · rintro ⟨number', hq'⟩
    have hc' := (hsection (cardOf lines q')).2 ⟨q', number', hq', rfl⟩
    refine eq_of_openedBefore_eq hq' hq rfl rfl ?_
    exact (Section.cardOf_eq_iff hq' hq rfl nofun nofun).1 (hc'.trans hc.symm)
  · rintro rfl
    exact ⟨number, hq⟩

namespace Layout

/-- A laid out section has its labels collected and its instructions as they are written. -/
lemma lay_eq_ok {s : Section} {c : CardLayout} (h : lay s = .ok c) :
    collectLabels [] 0 s.body = .ok c.labels ∧ c.instructions = s.instructions := by
  rw [lay] at h
  cases hlabels : collectLabels [] 0 s.body with
  | error e => rw [hlabels] at h; cases h
  | ok labels => rw [hlabels] at h; cases h; exact ⟨rfl, rfl⟩

/-- A name that is resolved becomes the value it means. -/
lemma resolve_symbol {layout : Layout} {c : CardLayout} {i : Nat} {placed : PlacedInstruction}
    {argument : Argument} (h : layout.resolve c i placed = .ok argument) {name : String}
    (hname : placed.written.operand = .symbol name) :
    ∃ w : Word, argument = .literal w ∧
      layout.meaning c.labels i placed.written.opcode name = .ok w.toInt := by
  rw [resolve, hname] at h
  dsimp only at h
  split at h
  · cases h
  · next v hv =>
    split at h
    · next w hw =>
      cases h
      exact ⟨w, rfl, by rw [hv, Word.ofInt?_eq_some_iff.1 hw]⟩
    · cases h

/-- What a jump makes of the meaning of a label: an offset comes to the position again. -/
lemma place_of_label {layout : Layout} {labels : SymbolTable} {i : Nat} {opcode : Opcode}
    {name : String} {v : Int} (hop : opcode = .jmp ∨ opcode = .jby)
    (h : layout.meaning labels i opcode name = .ok v) (p : Program) (c : Nat) :
    ∃ symbol, labels.lookup name = some symbol ∧
      Semantics.place p c i v opcode =
        (c, if symbol.index < p.cardLength c then symbol.index else 0) := by
  have hland (t : Nat) : Semantics.landing t (p.cardLength c) = if t < p.cardLength c then t else 0 := by
    simp [Semantics.landing]
  rw [meaning] at h
  rcases hop with rfl | rfl
  · dsimp only [Vocabulary.role] at h
    split at h
    · next symbol hlookup =>
      cases h
      exact ⟨symbol, hlookup, by rw [Semantics.place, hland]⟩
    · cases h
  · dsimp only [Vocabulary.role] at h
    split at h
    · next symbol hlookup =>
      cases h
      refine ⟨symbol, hlookup, ?_⟩
      rw [Semantics.place, show (i : Int) + (symbol.index - i) = symbol.index by omega, hland]
    · cases h

/-- What a change of card makes of the meaning of a card's name. -/
lemma place_of_cardName {layout : Layout} {labels : SymbolTable} {i : Nat} {opcode : Opcode}
    {name : String} {v : Int} (hop : opcode = .crd ∨ opcode = .crj)
    (h : layout.meaning labels i opcode name = .ok v) (p : Program) (c : Nat) :
    ∃ symbol, layout.cardNames.lookup name = some symbol ∧ (symbol.index < p.cardCount →
      Semantics.place p c i v opcode =
        (symbol.index,
          if opcode = .crd then 0 else Semantics.wrapped i (p.cardLength symbol.index))) := by
  rw [meaning] at h
  rcases hop with rfl | rfl
  all_goals
    dsimp only [Vocabulary.role] at h
    split at h
    · next symbol hlookup =>
      cases h
      refine ⟨symbol, hlookup, fun hlt => ?_⟩
      rw [Semantics.place, if_pos (by omega)]
      rfl
    · cases h

end Layout

namespace Assembly

section

variable {file : String} {lines : List NumberedLine} {layout : Layout} {cards : List (List Entry)}
  (hlayout : Layout.ofLines lines = .ok layout) (hbeyond : unaddressable file layout = [])
  (hcards : resolveAll file layout = .ok cards)
include hlayout hbeyond hcards

/-- An instruction line is the instruction at its place, its operand resolved on the layout of its
card. -/
lemma exists_instruction {k number : Nat} {label : Option String} {written : WrittenInstruction}
    (hk : lines[k]? = some ⟨number, .instruction label written⟩) :
    ∃ (s : Section) (start : Nat) (c : CardLayout) (argument : Argument),
      Section.Spans lines s.body (openedBefore lines k) start ∧
      Layout.collectLabels [] 0 s.body = .ok c.labels ∧
      layout.resolve c (positionOf lines k) ⟨written, number⟩ = .ok argument ∧
      (ofEntries file layout cards).program.instruction? (cardOf lines k) (positionOf lines k) =
        some ⟨written.opcode, argument, written.flag⟩ := by
  obtain ⟨s, start, hs, span⟩ := Section.exists_section_cardOf hk rfl nofun
  obtain ⟨hlaid, -⟩ := Layout.ofLines_eq_ok_iff.1 hlayout
  have hc := congrArg (·[cardOf lines k]?) hlaid
  simp only [List.getElem?_map, hs, Option.map_some] at hc
  obtain ⟨c, hc, hlay⟩ := Option.map_eq_some_iff.1 hc.symm
  obtain ⟨hlabels, hinstructions⟩ := Layout.lay_eq_ok hlay.symm
  obtain ⟨j, rfl, hj⟩ := span.only hk rfl rfl
  obtain ⟨-, -, -, hearlier⟩ := span.inside hj
  have hi := Section.getElem?_instructions hj
  rw [← hearlier, ← hinstructions] at hi
  obtain ⟨argument, hresolve, hinstruction⟩ := instruction?_eq hbeyond hcards hc hi
  exact ⟨s, start, c, argument, span, hlabels, hresolve, hinstruction⟩

/-- A jump to a name goes to the one line with the label, or to the start where the label ends its
card. -/
lemma exists_jump {k number : Nat} {label : Option String} {written : WrittenInstruction}
    {name : String} (hk : lines[k]? = some ⟨number, .instruction label written⟩)
    (hop : written.opcode = .jmp ∨ written.opcode = .jby) (hname : written.operand = .symbol name) :
    ∃ q, (∀ q', LabelledAt lines (cardOf lines k) name q' ↔ q' = q) ∧
      Leads (ofEntries file layout cards).program (cardOf lines k) (positionOf lines k)
        (cardOf lines k)
        (if positionOf lines q < (ofEntries file layout cards).program.cardLength (cardOf lines k)
          then positionOf lines q else 0) := by
  obtain ⟨s, start, c, argument, span, hlabels, hresolve, hi⟩ :=
    exists_instruction hlayout hbeyond hcards hk
  obtain ⟨w, rfl, hmeaning⟩ := Layout.resolve_symbol hresolve hname
  obtain ⟨symbol, hlookup, hplace⟩ := Layout.place_of_label hop hmeaning
    (ofEntries file layout cards).program (cardOf lines k)
  obtain ⟨q, hq, hindex⟩ := exists_labelledAt hk rfl nofun span hlabels hlookup
  refine ⟨q, hq, leads_of_literal (Program.addressable_ofCards _) hi ?_ (hindex ▸ hplace)⟩
  rcases hop with e | e <;> rw [e] <;> rfl

/-- A change to a named card goes to the one card of the name, to its start or to where the machine
stands. -/
lemma exists_change {k number : Nat} {label : Option String} {written : WrittenInstruction}
    {name : String} (hk : lines[k]? = some ⟨number, .instruction label written⟩)
    (hop : written.opcode = .crd ∨ written.opcode = .crj) (hname : written.operand = .symbol name) :
    ∃ q, (∀ q', OpenedAt lines name q' ↔ q' = q) ∧
      Leads (ofEntries file layout cards).program (cardOf lines k) (positionOf lines k)
        (cardOf lines q)
        (if written.opcode = .crd then 0
          else Semantics.wrapped (positionOf lines k)
            ((ofEntries file layout cards).program.cardLength (cardOf lines q))) := by
  obtain ⟨s, start, c, argument, -, -, hresolve, hi⟩ :=
    exists_instruction hlayout hbeyond hcards hk
  obtain ⟨w, rfl, hmeaning⟩ := Layout.resolve_symbol hresolve hname
  obtain ⟨symbol, hlookup, hplace⟩ := Layout.place_of_cardName hop hmeaning
    (ofEntries file layout cards).program (cardOf lines k)
  obtain ⟨hlaid, hnames⟩ := Layout.ofLines_eq_ok_iff.1 hlayout
  obtain ⟨q, hq, hindex⟩ := exists_openedAt hnames hlookup
  have hlt : symbol.index < (ofEntries file layout cards).program.cardCount := by
    obtain ⟨s', hs', -⟩ := (Layout.lookup_nameEntries hnames hlookup _).2 rfl
    have hlength := congrArg List.length hlaid
    rw [List.length_map, List.length_map] at hlength
    rw [cardCount_eq hbeyond hcards, ← hlength]
    exact (List.getElem?_eq_some_iff.1 hs').1
  refine ⟨q, hq, leads_of_literal (Program.addressable_ofCards _) hi ?_ (hindex ▸ hplace hlt)⟩
  rcases hop with e | e <;> rw [e] <;> rfl

end

/-- In every assembled source, the branches of the program go where the names in its lines stand. -/
theorem branches_follow_names {path content : String} {a : Assembly}
    (h : ofSource path content = .ok a) :
    ∃ lines, (Source.extract path content).map (readLine path) = lines.map .ok ∧
      BranchesFollow lines a.program := by
  obtain ⟨lines, layout, cards, hread, hlayout, hbeyond, hcards, rfl⟩ := ofLines_eq_ok_iff.1 h
  refine ⟨lines, hread, ?_⟩
  constructor
  case instruction =>
    intro k number label written hk
    obtain ⟨_, _, _, argument, -, -, -, hi⟩ := exists_instruction hlayout hbeyond hcards hk
    exact ⟨argument, hi⟩
  case jump => exact exists_jump hlayout hbeyond hcards
  case change => exact exists_change hlayout hbeyond hcards
  case jump_eq =>
    intro k k' number number' label label' written written' name hk hop hname hk' hop' hname' hcard m
      hm hc
    -- both lead to the one line with the label
    obtain ⟨q, hq, hleads⟩ := exists_jump hlayout hbeyond hcards hk hop hname
    obtain ⟨q', hq', hleads'⟩ := exists_jump hlayout hbeyond hcards hk' hop' hname'
    rw [hcard] at hq' hleads'
    obtain rfl : q = q' := (hq' q).1 ((hq q).2 rfl)
    obtain ⟨card, ip, hcard, hip, hrun⟩ := hleads m hm hc
    obtain ⟨card', ip', hcard', hip', hrun'⟩ := hleads' m hm hc
    rw [hrun, hrun', Fin.ext (hcard'.trans hcard.symm), Fin.ext (hip'.trans hip.symm)]

/-- The first card has no heading, one of its labels stands after its last instruction, and the second
card is shorter than the position of the instruction that goes there. -/
def patrolSource : String :=
  "start: LDA 3\nEQU JBY done\nJMP start\nCRJ dock\ndone:\n.card dock\n\nMOV 1 ; one step\nCRD dock"

/-- The program of `patrolSource`. -/
def patrolProgram : Program :=
  ⟨[[⟨.lda, .literal 3, none⟩, ⟨.jby, .literal 3, some .equ⟩, ⟨.jmp, .literal 0, none⟩,
      ⟨.crj, .literal 1, none⟩],
    [⟨.mov, .literal 1, none⟩, ⟨.crd, .literal 1, none⟩]]⟩

/-- `patrolSource` assembles, and its branches go where their names stand. -/
theorem patrol_branches_follow_names :
    ∃ a, ofSource "patrol.cards" patrolSource = .ok a ∧ a.program = patrolProgram ∧
      ∃ lines, (Source.extract "patrol.cards" patrolSource).map (readLine "patrol.cards") =
          lines.map .ok ∧ BranchesFollow lines a.program := by
  have hprogram : (ofSource "patrol.cards" patrolSource).toOption.map (·.program) =
      some patrolProgram := by decide +kernel
  cases h : ofSource "patrol.cards" patrolSource with
  | error errors => rw [h] at hprogram; cases hprogram
  | ok a =>
    rw [h] at hprogram
    exact ⟨a, rfl, Option.some.inj hprogram, branches_follow_names h⟩

end Assembly

end CardMachine
