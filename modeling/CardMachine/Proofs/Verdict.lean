import CardMachine.Proofs.Addressing
import CardMachine.Proofs.Branch
import CardMachine.Proofs.Order

/-!
# What an assembler answers

A source assembles whole or not at all. Which of the two is said here of its lines alone
(`NamesOnce`, `InReach`, `Resolved`), and so is what comes out: the cards, and one entry for each line
with an instruction (`Mirrors`), or else the errors of the first stage that finds any (`Explains`).

The stages see a source through its layout, card by card, and the statements count its lines. The two
agree because source order is program order: the resolutions of a layout are those of the lines, one
after the other (`resolutions_eq_gatherLines`). What is left is a name by itself. It is looked up
exactly if it stands where it may be used, and then what it means fits an argument
(`Layout.meaning_of_known`).
-/

namespace CardMachine

/-- The list has one element for each number that has one, in the order of the numbers. -/
def OneEach {β : Type} (P : Nat → β → Prop) (xs : List β) : Prop :=
  ∃ ks : List Nat, ks.Pairwise (· < ·) ∧ (∀ k, k ∈ ks ↔ ∃ x, P k x) ∧ List.Forall₂ P ks xs

/-- Each element has its number. -/
lemma OneEach.exists_of_mem {β : Type} {P : Nat → β → Prop} {xs : List β} (h : OneEach P xs) {x : β}
    (hx : x ∈ xs) : ∃ k, P k x := by
  obtain ⟨ks, -, -, hall⟩ := h
  induction hall with
  | nil => cases hx
  | @cons k _ _ _ hfirst _ ih =>
    rcases List.mem_cons.1 hx with rfl | hx
    · exact ⟨k, hfirst⟩
    · exact ih hx

/-- What comes of the members of a list one by one, each at its own index. -/
lemma oneEach_filterMap {α β : Type} {l : List α} {g : α × Nat → Option β} {P : Nat → β → Prop}
    (hsound : ∀ k a x, l[k]? = some a → g (a, k) = some x → P k x)
    (hcomplete : ∀ k x, P k x → ∃ a y, l[k]? = some a ∧ g (a, k) = some y) :
    OneEach P (l.zipIdx.filterMap g) := by
  refine ⟨(l.zipIdx.filter fun p => (g p).isSome).map Prod.snd, ?_, fun k => ?_, ?_⟩
  · rw [List.pairwise_map]
    exact (pairwise_snd_zipIdx l).filter _
  · simp only [List.mem_map, List.mem_filter, Prod.exists, exists_eq_right, Option.isSome_iff_exists,
      List.mk_mem_zipIdx_iff_getElem?]
    constructor
    · rintro ⟨a, ha, x, hx⟩
      exact ⟨x, hsound k a x ha hx⟩
    · rintro ⟨x, hx⟩
      obtain ⟨a, y, ha, hy⟩ := hcomplete k x hx
      exact ⟨a, ha, y, hy⟩
  · rw [List.forall₂_map_left_iff]
    have hall : ∀ p ∈ l.zipIdx, ∀ x, g p = some x → P p.2 x := by
      rintro ⟨a, k⟩ hp x hx
      exact hsound k a x (List.mk_mem_zipIdx_iff_getElem?.1 hp) hx
    generalize l.zipIdx = pairs at hall
    induction pairs with
    | nil => exact .nil
    | cons p rest ih =>
      rw [List.forall_mem_cons] at hall
      cases hp : g p with
      | none => simpa [hp] using ih hall.2
      | some x => simpa [hp] using ⟨hall.1 x hp, ih hall.2⟩

/-- No label stands twice on one card, and no two cards have one name. -/
structure NamesOnce (lines : List NumberedLine) : Prop where
  label {c q q' : Nat} {name : String} (h : LabelledAt lines c name q)
    (h' : LabelledAt lines c name q') : q = q'
  card {q q' : Nat} {name : String} (h : OpenedAt lines name q) (h' : OpenedAt lines name q') : q = q'

/-- No card and no instruction has an index of 256 or more. -/
structure InReach (lines : List NumberedLine) : Prop where
  card {k number : Nat} {name : Option String} (hk : lines[k]? = some ⟨number, .card name⟩) :
    cardOf lines k < 256
  instruction {k number : Nat} {label : Option String} {written : WrittenInstruction}
    (hk : lines[k]? = some ⟨number, .instruction label written⟩) : positionOf lines k < 256

/-- The name is one that `opcode` can take on the line at `k`: a jump takes a label of its own card, a
change of card takes the name of a card, and nothing else takes a name. -/
def Known (lines : List NumberedLine) (k : Nat) (name : String) : Opcode → Prop
  | .jmp | .jby => ∃ q, LabelledAt lines (cardOf lines k) name q
  | .crd | .crj => ∃ q, OpenedAt lines name q
  | _ => False

/-- Every name that is used is known. -/
def Resolved (lines : List NumberedLine) : Prop :=
  ∀ {k number : Nat} {label : Option String} {written : WrittenInstruction} {name : String},
    lines[k]? = some ⟨number, .instruction label written⟩ → written.operand = .symbol name →
      Known lines k name written.opcode

/-- What is wrong with a name that is not known. -/
def unknownFault (name : String) : Opcode → SymbolFault
  | .jmp | .jby => .undefinedLabel name
  | .crd | .crj => .undefinedCard name
  | opcode => .symbolNotAllowed name opcode

/-- All instructions of a program, card by card, with their card and index. -/
def Program.positions (p : Program) : List (Nat × Nat × Instruction) :=
  p.cards.zipIdx.flatMap fun (card, c) => card.zipIdx.map fun (instruction, i) => (c, i, instruction)

/-- The positions of a program are those of its instructions. -/
lemma Program.mem_positions_iff {p : Program} {c i : Nat} {instruction : Instruction} :
    (c, i, instruction) ∈ p.positions ↔ p.instruction? c i = some instruction := by
  rw [positions, mem_flatMap_zipIdx_iff, instruction?, card, List.getD_eq_getElem?_getD]
  simp only [List.mem_map, Prod.exists, List.mk_mem_zipIdx_iff_getElem?, Prod.mk.injEq]
  constructor
  · rintro ⟨_, card, hc, _, _, hi, rfl, rfl, rfl⟩
    rw [hc]
    exact hi
  · intro h
    cases hc : p.cards[c]? with
    | none => rw [hc] at h; cases h
    | some card =>
      rw [hc] at h
      exact ⟨c, card, hc, instruction, i, h, rfl, rfl, rfl⟩

namespace Assembly

/-- The cards of a source. What stands before the first heading is a card of its own, opened by its
first line that is not blank. -/
def sourceCards (lines : List NumberedLine) : List CardInfo :=
  ((lines.takeWhile (!·.opensCard)).find? (·.line ≠ .blank)).toList.map (⟨none, ·.number⟩) ++
    lines.filterMap fun l => match l.line with
      | .card name => some ⟨name, l.number⟩
      | _ => none

/-- The error says that the line at `k` cannot be read, and why. -/
def Unread (path : String) (source : List SourceLine) (k : Nat) (e : Error) : Prop :=
  ∃ l failure, source[k]? = some l ∧ Line.parse l.text = .error failure ∧
    e = ⟨.line failure.fault, some ⟨path, l.number, failure.column⟩⟩

/-- The error says that the instruction on the line at `k` uses a name that is not known. -/
def Unresolved (path : String) (lines : List NumberedLine) (k : Nat) (e : Error) : Prop :=
  ∃ number label written name, lines[k]? = some ⟨number, .instruction label written⟩ ∧
    written.operand = .symbol name ∧ ¬ Known lines k name written.opcode ∧
    e = ⟨.symbol (unknownFault name written.opcode), some ⟨path, number, written.column⟩⟩

/-- The entry is the instruction on the line at `k`. -/
def Lists (path : String) (lines : List NumberedLine) (k : Nat) (e : Entry) : Prop :=
  ∃ number label written argument, lines[k]? = some ⟨number, .instruction label written⟩ ∧
    e = ⟨cardOf lines k, positionOf lines k, ⟨written.opcode, argument, written.flag⟩,
      ⟨path, number, written.column⟩⟩

/-- An assembly has the cards of a source, and its listing has the instructions of the program and of
the source, one by one. -/
structure Mirrors (path : String) (lines : List NumberedLine) (a : Assembly) : Prop where
  cards : a.cards = sourceCards lines
  cardCount : a.program.cardCount = a.cards.length
  positions : a.entries.map (fun e => (e.card, e.index, e.instruction)) = a.program.positions
  instruction? {e : Entry} (he : e ∈ a.entries) :
    a.program.instruction? e.card e.index = some e.instruction
  lines : OneEach (Lists path lines) a.entries

/-- The lines of a source file, if all of them can be read. -/
def Reads (path content : String) (lines : List NumberedLine) : Prop :=
  (Source.extract path content).map (readLine path) = lines.map .ok

/-- What the errors of a source are: those of the first stage that finds any. -/
inductive Explains (path content : String) (errors : List Error) : Prop where
  | unread : OneEach (Unread path (Source.extract path content)) errors → Explains path content errors
  | repeated {lines : List NumberedLine} {e : Error} (name : String) (first : Nat) :
    Reads path content lines →
    ¬ NamesOnce lines →
    e.fault = .symbol (.duplicateLabel name first) ∨ e.fault = .symbol (.duplicateCard name first) →
    errors = [e] →
    Explains path content errors
  | beyond {lines : List NumberedLine} :
    Reads path content lines →
    NamesOnce lines →
    ¬ InReach lines →
    (∀ e ∈ errors, e.fault.Unaddressable) →
    Explains path content errors
  | unresolved {lines : List NumberedLine} :
    Reads path content lines →
    NamesOnce lines →
    InReach lines →
    OneEach (Unresolved path lines) errors →
    Explains path content errors

end Assembly

/-- A card has its name from its heading. -/
lemma heading?_bind_eq_some_iff {l : NumberedLine} {name : String} :
    l.heading?.bind Prod.snd = some name ↔ ∃ number, l = ⟨number, .card (some name)⟩ := by
  obtain ⟨number, line⟩ := l
  cases line <;> simp [NumberedLine.heading?]

/-- Lines can be laid out exactly if every name is given once. -/
lemma namesOnce_iff {lines : List NumberedLine} :
    NamesOnce lines ↔ ∃ layout, Layout.ofLines lines = .ok layout := by
  rw [Layout.exists_ofLines_iff, Section.nodup_labels_iff, Section.filterMap_name,
    nodup_filterMap_iff]
  constructor
  · intro once
    refine ⟨fun j k l l' name hl hl' hname hname' hcard => ?_, fun j k l l' name hl hl' hname hname' => ?_⟩
    · exact once.label (labelledAt_iff.2 ⟨hcard, l, hl, hname⟩) (labelledAt_iff.2 ⟨rfl, l', hl', hname'⟩)
    · obtain ⟨number, rfl⟩ := heading?_bind_eq_some_iff.1 hname
      obtain ⟨number', rfl⟩ := heading?_bind_eq_some_iff.1 hname'
      exact once.card ⟨number, hl⟩ ⟨number', hl'⟩
  · rintro ⟨hlabels, hnames⟩
    refine ⟨fun {c q q' name} h h' => ?_, fun {q q' name} h h' => ?_⟩
    · obtain ⟨rfl, l, hl, hname⟩ := labelledAt_iff.1 h
      obtain ⟨hcard, l', hl', hname'⟩ := labelledAt_iff.1 h'
      exact hlabels q q' l l' name hl hl' hname hname' hcard.symm
    · obtain ⟨number, hq⟩ := h
      obtain ⟨number', hq'⟩ := h'
      exact hnames q q' _ _ name hq hq' rfl rfl

namespace Layout

/-- A section that is laid out keeps its name and its line. -/
lemma heading_of_lay {s : Section} {c : CardLayout} (h : lay s = .ok c) :
    c.name = s.name ∧ c.definedAt = s.definedAt := by
  rw [lay] at h
  cases hlabels : collectLabels [] 0 s.body with
  | error e => rw [hlabels] at h; cases h
  | ok labels => rw [hlabels] at h; cases h; exact ⟨rfl, rfl⟩

variable {lines : List NumberedLine} {layout : Layout} (hlayout : ofLines lines = .ok layout)
include hlayout

/-- Each card of the layout is a section of the source. -/
lemma exists_section {n : Nat} {c : CardLayout} (hc : layout.cards[n]? = some c) :
    ∃ s, (Section.ofLines lines)[n]? = some s ∧ lay s = .ok c := by
  have h := congrArg (·[n]?) (ofLines_eq_ok_iff.1 hlayout).1
  simp only [List.getElem?_map, hc, Option.map_some] at h
  exact Option.map_eq_some_iff.1 h

/-- Each section of the source is a card of the layout. -/
lemma exists_card {n : Nat} {s : Section} (hs : (Section.ofLines lines)[n]? = some s) :
    ∃ c, layout.cards[n]? = some c ∧ lay s = .ok c := by
  have h := congrArg (·[n]?) (ofLines_eq_ok_iff.1 hlayout).1
  simp only [List.getElem?_map, hs, Option.map_some] at h
  obtain ⟨c, hc, e⟩ := Option.map_eq_some_iff.1 h.symm
  exact ⟨c, hc, e.symm⟩

/-- There are as many cards as sections. -/
lemma length_cards : layout.cards.length = (Section.ofLines lines).length := by
  have h := congrArg List.length (ofLines_eq_ok_iff.1 hlayout).1
  rw [List.length_map, List.length_map] at h
  exact h.symm

/-- What the cards tell of themselves is what the sections tell. -/
lemma map_cards_eq {β : Type} {f : CardLayout → β} {g : Section → β}
    (h : ∀ {s c}, lay s = .ok c → f c = g s) :
    layout.cards.map f = (Section.ofLines lines).map g := by
  refine List.ext_getElem (by rw [List.length_map, List.length_map, length_cards hlayout]) ?_
  intro n hn hn'
  rw [List.getElem_map, List.getElem_map]
  rw [List.length_map] at hn hn'
  obtain ⟨s, hs, hlay⟩ := exists_section hlayout (List.getElem?_eq_getElem hn)
  rw [List.getElem?_eq_getElem hn'] at hs
  cases hs
  exact h hlay

/-- The labels of a card are those on its lines, and mean the positions of the lines. -/
lemma lookup_labels_eq_some_iff {c : Nat} {card : CardLayout} (hc : layout.cards[c]? = some card)
    {name : String} {symbol : Symbol} :
    card.labels.lookup name = some symbol ↔
      ∃ k l, lines[k]? = some l ∧ l.line.label? = some name ∧ cardOf lines k = c ∧
        symbol = ⟨positionOf lines k, l.number⟩ := by
  obtain ⟨s, hs, hlay⟩ := exists_section hlayout hc
  have hlabels := (lay_eq_ok hlay).1
  rw [collectLabels_eq] at hlabels
  rw [lookup_defineAll_iff hlabels, Section.mem_labelEntries_iff hs]

/-- A label is in the table of a card exactly if a line of the card has it. -/
lemma lookup_labels_iff {c : Nat} {card : CardLayout} (hc : layout.cards[c]? = some card)
    {name : String} :
    (∃ symbol, card.labels.lookup name = some symbol) ↔ ∃ q, LabelledAt lines c name q := by
  simp only [lookup_labels_eq_some_iff hlayout hc, labelledAt_iff]
  constructor
  · rintro ⟨_, q, l, hl, hname, hcard, -⟩
    exact ⟨q, hcard, l, hl, hname⟩
  · rintro ⟨q, hcard, l, hl, hname⟩
    exact ⟨_, q, l, hl, hname, hcard, rfl⟩

/-- A label stands behind some of the instructions of its card. -/
lemma index_le_of_label {c : Nat} {card : CardLayout} (hc : layout.cards[c]? = some card)
    {name : String} {symbol : Symbol} (hlookup : card.labels.lookup name = some symbol) :
    symbol.index ≤ card.instructions.length := by
  obtain ⟨s, -, hlay⟩ := exists_section hlayout hc
  obtain ⟨hlabels, hinstructions⟩ := lay_eq_ok hlay
  obtain ⟨j, hindex, -⟩ := lookup_collectLabels hlabels hlookup
  have hlength : s.instructions.length = s.body.countP (·.isInstruction) := by
    rw [Section.instructions, List.length_filterMap_eq_countP]
    refine List.countP_congr fun l _ => ?_
    rw [NumberedLine.isInstruction]
    cases l.line <;> rfl
  rw [hindex, hinstructions, hlength]
  exact (List.take_sublist j s.body).countP_le

/-- The names of cards are those in the headings, and mean the cards that the headings open. -/
lemma lookup_cardNames_eq_some_iff {name : String} {symbol : Symbol} :
    layout.cardNames.lookup name = some symbol ↔
      ∃ k number, lines[k]? = some ⟨number, .card (some name)⟩ ∧
        symbol = ⟨cardOf lines k, number⟩ := by
  rw [lookup_defineAll_iff (ofLines_eq_ok_iff.1 hlayout).2, List.mem_iff_getElem?]
  simp only [getElem?_nameEntries, Option.map_eq_some_iff, Prod.mk.injEq, Nat.zero_add]
  constructor
  · rintro ⟨c, s, hs, hname, rfl⟩
    obtain ⟨k, hk, rfl⟩ := Section.exists_heading_of_section hs hname
    exact ⟨k, _, hk, rfl⟩
  · rintro ⟨k, number, hk, rfl⟩
    obtain ⟨s, hs, hname, rfl⟩ := Section.exists_section_of_heading hk
    exact ⟨_, s, hs, hname, rfl⟩

/-- A name is in the table of cards exactly if a line opens a card of that name. -/
lemma lookup_cardNames_iff {name : String} :
    (∃ symbol, layout.cardNames.lookup name = some symbol) ↔ ∃ q, OpenedAt lines name q := by
  simp only [lookup_cardNames_eq_some_iff hlayout]
  constructor
  · rintro ⟨_, q, number, hq, -⟩
    exact ⟨q, number, hq⟩
  · rintro ⟨q, number, hq⟩
    exact ⟨_, q, number, hq, rfl⟩

/-- The name of a card means a card that is there. -/
lemma index_lt_of_cardName {name : String} {symbol : Symbol}
    (hlookup : layout.cardNames.lookup name = some symbol) : symbol.index < layout.cards.length := by
  have hnames := (ofLines_eq_ok_iff.1 hlayout).2
  obtain ⟨s, hs, -⟩ := (lookup_nameEntries hnames hlookup symbol.index).2 rfl
  rw [length_cards hlayout]
  exact (List.getElem?_eq_some_iff.1 hs).1

/-- An instruction stands on the card and at the position that its line counts. -/
lemma exists_card_of_line {k number : Nat} {label : Option String} {written : WrittenInstruction}
    (hk : lines[k]? = some ⟨number, .instruction label written⟩) :
    ∃ c, layout.cards[cardOf lines k]? = some c ∧
      c.instructions[positionOf lines k]? = some ⟨written, number⟩ := by
  obtain ⟨s, hs, hi⟩ : ∃ s, (Section.ofLines lines)[cardOf lines k]? = some s ∧
      s.instructions[positionOf lines k]? = some ⟨written, number⟩ :=
    Section.getElem?_instructions_iff.2 ⟨k, label, hk, rfl, rfl⟩
  obtain ⟨c, hc, hlay⟩ := exists_card hlayout hs
  exact ⟨c, hc, (lay_eq_ok hlay).2 ▸ hi⟩

/-- The positions of a layout can be named exactly if the lines count none beyond. -/
lemma addressable_iff_inReach : layout.Addressable ↔ InReach lines := by
  rw [Addressable, length_cards hlayout, Section.length_ofLines_le_iff (by decide)]
  constructor
  · rintro ⟨hcards, hlength⟩
    refine ⟨hcards, fun {k number label written} hk => ?_⟩
    obtain ⟨c, hc, hi⟩ := exists_card_of_line hlayout hk
    exact Nat.lt_of_lt_of_le (List.getElem?_eq_some_iff.1 hi).1 (hlength c (List.mem_of_getElem? hc))
  · rintro ⟨hcards, hpositions⟩
    refine ⟨hcards, fun c hc => ?_⟩
    obtain ⟨n, hn⟩ := List.mem_iff_getElem?.1 hc
    obtain ⟨s, hs, hlay⟩ := exists_section hlayout hn
    rw [(lay_eq_ok hlay).2]
    by_contra hlong
    -- the instruction at position 256 stands on a line
    have hi : s.instructions[256]? = some s.instructions[256] :=
      List.getElem?_eq_getElem (Nat.not_le.1 hlong)
    obtain ⟨k, label, hk, -, hposition⟩ := Section.getElem?_instructions_iff.1 ⟨s, hs, hi⟩
    have := hpositions hk
    omega

/-- A name that is known means a number, and one that fits an argument: no position is far from
another. -/
lemma meaning_of_known (hreach : layout.Addressable) {k i : Nat} {card : CardLayout}
    (hc : layout.cards[cardOf lines k]? = some card) (hi : i < card.instructions.length)
    {opcode : Opcode} {name : String} (known : Known lines k name opcode) :
    ∃ v, layout.meaning card.labels i opcode name = .ok v ∧ -256 ≤ v ∧ v ≤ 256 := by
  have hlength := hreach.2 card (List.mem_of_getElem? hc)
  have hcount := hreach.1
  cases opcode with
  | jmp =>
    obtain ⟨symbol, hlookup⟩ := (lookup_labels_iff hlayout hc).2 known
    have hle := index_le_of_label hlayout hc hlookup
    refine ⟨symbol.index, ?_, by omega, by omega⟩
    rw [meaning, Vocabulary.role, hlookup]
  | jby =>
    obtain ⟨symbol, hlookup⟩ := (lookup_labels_iff hlayout hc).2 known
    have hle := index_le_of_label hlayout hc hlookup
    refine ⟨symbol.index - i, ?_, by omega, by omega⟩
    rw [meaning, Vocabulary.role, hlookup]
  | crd | crj =>
    obtain ⟨symbol, hlookup⟩ := (lookup_cardNames_iff hlayout).2 known
    have hlt := index_lt_of_cardName hlayout hlookup
    refine ⟨symbol.index, ?_, by omega, by omega⟩
    rw [meaning, Vocabulary.role, hlookup]
  | _ => cases known

/-- A name that is not known has no meaning, and the fault tells why. -/
lemma meaning_of_not_known {k i : Nat} {card : CardLayout}
    (hc : layout.cards[cardOf lines k]? = some card) {opcode : Opcode} {name : String}
    (unknown : ¬ Known lines k name opcode) :
    layout.meaning card.labels i opcode name = .error (unknownFault name opcode) := by
  cases opcode with
  | jmp | jby =>
    cases hlookup : card.labels.lookup name with
    | none => rw [meaning, Vocabulary.role, hlookup]; rfl
    | some symbol => exact absurd ((lookup_labels_iff hlayout hc).1 ⟨symbol, hlookup⟩) unknown
  | crd | crj =>
    cases hlookup : layout.cardNames.lookup name with
    | none => rw [meaning, Vocabulary.role, hlookup]; rfl
    | some symbol => exact absurd ((lookup_cardNames_iff hlayout).1 ⟨symbol, hlookup⟩) unknown
  | _ => rfl

/-- The operand of an instruction is resolved exactly if it is no name or a name that is known. -/
lemma resolve_cases (hreach : layout.Addressable) {k i : Nat} {card : CardLayout}
    (hc : layout.cards[cardOf lines k]? = some card) (hi : i < card.instructions.length)
    (placed : PlacedInstruction) :
    (∃ name, placed.written.operand = .symbol name ∧ ¬ Known lines k name placed.written.opcode ∧
      layout.resolve card i placed =
        .error ⟨unknownFault name placed.written.opcode, placed.number, placed.written.column⟩) ∨
    ((∀ name, placed.written.operand = .symbol name → Known lines k name placed.written.opcode) ∧
      ∃ argument, layout.resolve card i placed = .ok argument) := by
  cases hoperand : placed.written.operand with
  | literal v =>
    refine .inr ⟨fun name hname => ?_, .literal v, by rw [resolve, hoperand]⟩
    cases hname
  | register r =>
    refine .inr ⟨fun name hname => ?_, .register r, by rw [resolve, hoperand]⟩
    cases hname
  | symbol name =>
    by_cases known : Known lines k name placed.written.opcode
    · obtain ⟨v, hv, hlo, hhi⟩ := meaning_of_known hlayout hreach hc hi known
      refine .inr ⟨?_, .literal (Int16.ofInt v), ?_⟩
      · rintro _ ⟨⟩
        exact known
      · have hword : Word.ofInt? v = some (Int16.ofInt v) := if_pos (by omega)
        rw [resolve, hoperand]
        dsimp only
        rw [hv]
        dsimp only
        rw [hword]
    · refine .inl ⟨name, rfl, known, ?_⟩
      rw [resolve, hoperand]
      dsimp only
      rw [meaning_of_not_known hlayout hc known]

end Layout

namespace Assembly

/-- Beyond the last section there is no card. -/
lemma getElem?_eq_none_of_section {lines : List NumberedLine} {layout : Layout}
    (hlayout : Layout.ofLines lines = .ok layout) {n : Nat}
    (h : (Section.ofLines lines)[n]? = none) : layout.cards[n]? = none := by
  rw [List.getElem?_eq_none_iff] at h ⊢
  rw [Layout.length_cards hlayout]
  exact h

/-- What becomes of the instruction on a line of card `c` with `i` instructions before it. -/
def resolution (file : String) (layout : Layout) (c i : Nat) (l : NumberedLine) :
    Option (Except Error Entry) :=
  l.placed?.bind fun placed =>
    layout.cards[c]?.map fun card => resolveEntry file layout card c placed i

section laid

variable {path : String} {lines : List NumberedLine} {layout : Layout}
  (hlayout : Layout.ofLines lines = .ok layout)
include hlayout

/-- What becomes of the instructions of a layout becomes of them line by line. -/
lemma resolutions_eq_gatherLines :
    resolutions path layout = Section.gatherLines (resolution path layout) lines := by
  have hgather := Section.gatherLines_placed? (fun c i placed =>
    layout.cards[c]?.map fun card => resolveEntry path layout card c placed i) lines
  refine Eq.trans ?_ hgather.symm
  rw [resolutions, List.flatMap_def, List.flatMap_def]
  congr 1
  refine List.ext_getElem? fun n => ?_
  rw [List.getElem?_map, List.getElem?_map, List.getElem?_zipIdx, List.getElem?_zipIdx]
  cases hs : (Section.ofLines lines)[n]? with
  | none => rw [getElem?_eq_none_of_section hlayout hs]; rfl
  | some s =>
    obtain ⟨card, hc, hlay⟩ := Layout.exists_card hlayout hs
    simp only [hc, Option.map_some, Nat.zero_add]
    rw [resolveCard, (Layout.lay_eq_ok hlay).2, List.filterMap_eq_map']

/-- Where a layout is resolved, no line has an error. -/
lemma resolution_ne_error {cards : List (List Entry)} (h : resolveAll path layout = .ok cards)
    {k : Nat} {l : NumberedLine} (hl : lines[k]? = some l) (e : Error) :
    resolution path layout (cardOf lines k) (positionOf lines k) l ≠ some (.error e) := by
  intro herror
  have hmem := Section.mem_gatherLines_iff.2 ⟨k, l, hl, herror⟩
  rw [← resolutions_eq_gatherLines hlayout, resolutions_eq_of_ok h] at hmem
  obtain ⟨_, -, ⟨⟩⟩ := List.mem_map.1 hmem

/-- The entries of all cards are those of the lines. -/
lemma flatten_eq_gatherLines {cards : List (List Entry)} (h : resolveAll path layout = .ok cards) :
    cards.flatten =
      (Section.gatherLines (resolution path layout) lines).filterMap Except.toOption := by
  rw [← resolutions_eq_gatherLines hlayout, resolutions_eq_of_ok h, List.filterMap_map]
  exact (List.filterMap_some).symm

variable (hreach : layout.Addressable)
include hreach

/-- An instruction comes to an error if it uses a name that is not known, and else to an entry. -/
lemma resolution_cases (path : String) {k : Nat} {l : NumberedLine} (hl : lines[k]? = some l) :
    (l.placed? = none ∧ resolution path layout (cardOf lines k) (positionOf lines k) l = none) ∨
    (∃ e, resolution path layout (cardOf lines k) (positionOf lines k) l = some (.error e) ∧
      Unresolved path lines k e) ∨
    (∃ e, resolution path layout (cardOf lines k) (positionOf lines k) l = some (.ok e) ∧
      Lists path lines k e ∧ ∀ e', ¬ Unresolved path lines k e') := by
  cases hplaced : l.placed? with
  | none => exact .inl ⟨rfl, by rw [resolution, hplaced]; rfl⟩
  | some placed =>
    obtain ⟨label, rfl⟩ := NumberedLine.placed?_eq_some_iff.1 hplaced
    obtain ⟨card, hc, hi⟩ := Layout.exists_card_of_line hlayout hl
    have hlt : positionOf lines k < card.instructions.length := (List.getElem?_eq_some_iff.1 hi).1
    rw [resolution, hplaced, hc]
    dsimp only [Option.bind_some, Option.map_some]
    rcases Layout.resolve_cases hlayout hreach hc hlt placed with
      ⟨name, hname, unknown, hresolve⟩ | ⟨known, argument, hresolve⟩
    · refine .inr (.inl ⟨_, by rw [resolveEntry, hresolve], ?_⟩)
      exact ⟨placed.number, label, placed.written, name, hl, hname, unknown, rfl⟩
    · refine .inr (.inr ⟨_, by rw [resolveEntry, hresolve], ?_, ?_⟩)
      · exact ⟨placed.number, label, placed.written, argument, hl, rfl⟩
      · rintro e' ⟨number, label', written, name, hl', hname, unknown, -⟩
        cases hl.symm.trans hl'
        exact unknown (known name hname)

/-- If resolving fails, there is an error for each operand that cannot be resolved. -/
lemma oneEach_unresolved {errors : List Error} (h : resolveAll path layout = .error errors) :
    OneEach (Unresolved path lines) errors := by
  obtain ⟨rfl, -⟩ := resolveAll_eq_error_iff.1 h
  rw [resolutions_eq_gatherLines hlayout, Section.gatherLines, List.filterMap_filterMap]
  refine oneEach_filterMap ?_ ?_
  · intro k l e hl he
    dsimp only at he
    rcases resolution_cases hlayout hreach path hl with
      ⟨-, hnone⟩ | ⟨e', herror, unresolved⟩ | ⟨e', hok, -⟩
    · rw [hnone] at he
      cases he
    · rw [herror] at he
      cases he
      exact unresolved
    · rw [hok] at he
      cases he
  · intro k e unresolved
    obtain ⟨number, label, written, name, hl, -⟩ := id unresolved
    rcases resolution_cases hlayout hreach path hl with ⟨⟨⟩, -⟩ | ⟨e', herror, -⟩ | ⟨e', -, -, hnot⟩
    · exact ⟨_, e', hl, by dsimp only; rw [herror]; rfl⟩
    · exact absurd unresolved (hnot e)

/-- If resolving succeeds, there is an entry for each instruction. -/
lemma oneEach_lists {cards : List (List Entry)} (h : resolveAll path layout = .ok cards) :
    OneEach (Lists path lines) cards.flatten := by
  rw [flatten_eq_gatherLines hlayout h, Section.gatherLines, List.filterMap_filterMap]
  refine oneEach_filterMap ?_ ?_
  · intro k l e hl he
    dsimp only at he
    rcases resolution_cases hlayout hreach path hl with
      ⟨-, hnone⟩ | ⟨e', herror, -⟩ | ⟨e', hok, lists, -⟩
    · rw [hnone] at he
      cases he
    · rw [herror] at he
      cases he
    · rw [hok] at he
      cases he
      exact lists
  · rintro k e ⟨number, label, written, argument, hl, -⟩
    rcases resolution_cases hlayout hreach path hl with ⟨⟨⟩, -⟩ | ⟨e', herror, -⟩ | ⟨e', hok, -, -⟩
    · exact absurd herror (resolution_ne_error hlayout h hl e')
    · exact ⟨_, e', hl, by dsimp only; rw [hok]; rfl⟩

/-- A layout is resolved exactly if every operand of its lines can be. -/
lemma exists_resolveAll_iff : (∃ cards, resolveAll path layout = .ok cards) ↔ Resolved lines := by
  constructor
  · rintro ⟨cards, h⟩ k number label written name hl hname
    by_contra unknown
    rcases resolution_cases hlayout hreach path hl with ⟨⟨⟩, -⟩ | ⟨e, herror, -⟩ | ⟨-, -, -, hnot⟩
    · exact resolution_ne_error hlayout h hl e herror
    · exact hnot _ ⟨number, label, written, name, hl, hname, unknown, rfl⟩
  · intro resolved
    cases h : resolveAll path layout with
    | ok cards => exact ⟨cards, rfl⟩
    | error errors =>
      obtain ⟨e, he⟩ := List.exists_mem_of_ne_nil errors (resolveAll_eq_error_iff.1 h).2
      obtain ⟨k, _, _, _, _, hl, hname, unknown, -⟩ :=
        (oneEach_unresolved hlayout hreach h).exists_of_mem he
      exact absurd (resolved hl hname) unknown

end laid

/-- The sections are the cards of the source. -/
lemma map_ofLines_eq_sourceCards (lines : List NumberedLine) :
    (Section.ofLines lines).map (fun s => ⟨s.name, s.definedAt⟩) = sourceCards lines := by
  have hheadings : (Section.split lines).2.map (fun s => (⟨s.name, s.definedAt⟩ : CardInfo)) =
      lines.filterMap fun l => match l.line with
        | .card name => some ⟨name, l.number⟩
        | _ => none := by
    have h := congrArg (List.map fun p => (⟨p.2, p.1⟩ : CardInfo)) (Section.headings_eq lines)
    rw [List.map_map, List.map_filterMap] at h
    refine h.trans (List.filterMap_congr fun l _ => ?_)
    rw [NumberedLine.heading?]
    cases l.line <;> rfl
  rw [sourceCards, ← hheadings, ← Section.fst_split, Section.ofLines]
  dsimp only
  cases (Section.split lines).1.find? (·.line ≠ .blank) <;> rfl

/-- An entry tells where the instruction stands. -/
lemma place_of_resolveEntry {file : String} {layout : Layout} {c : CardLayout} {card index : Nat}
    {placed : PlacedInstruction} {e : Entry}
    (h : resolveEntry file layout c card placed index = .ok e) : e.card = card ∧ e.index = index := by
  rw [resolveEntry] at h
  split at h
  · cases h
  · cases h
    exact ⟨rfl, rfl⟩

/-- The entries of a card list its instructions in order. -/
lemma map_entries_eq {file : String} {layout : Layout} {c : CardLayout} {card : Nat}
    {entries : List Entry} (h : resolveCard file layout c card = entries.map .ok) :
    entries.map (fun e => (e.card, e.index, e.instruction)) =
      (entries.map Entry.instruction).zipIdx.map fun (instruction, i) => (card, i, instruction) := by
  refine List.ext_getElem? fun i => ?_
  have hi := congrArg (·[i]?) h
  simp only [resolveCard, List.getElem?_map, List.getElem?_zipIdx, Nat.zero_add] at hi ⊢
  cases he : entries[i]? with
  | none => rfl
  | some e =>
    rw [he, Option.map_map] at hi
    obtain ⟨placed, -, hresolve⟩ := Option.map_eq_some_iff.1 hi
    obtain ⟨hcard, hindex⟩ := place_of_resolveEntry hresolve
    simp only [Option.map_some, hcard, hindex]

/-- The entries of the cards are the instructions of the program, position by position. -/
lemma map_flatten_eq_positions {file : String} {layout : Layout} {cards : List (List Entry)}
    (h : resolveAll file layout = .ok cards) :
    cards.flatten.map (fun e => (e.card, e.index, e.instruction)) =
      Program.positions ⟨cards.map (·.map Entry.instruction)⟩ := by
  rw [Program.positions, List.flatMap_def, List.map_flatten]
  congr 1
  refine List.ext_getElem? fun n => ?_
  simp only [List.getElem?_map, List.getElem?_zipIdx, Nat.zero_add]
  cases hn : cards[n]? with
  | none => rfl
  | some entries =>
    have hlt : n < layout.cards.length := length_cards h ▸ (List.getElem?_eq_some_iff.1 hn).1
    obtain ⟨entries', hn', hresolve⟩ := entries_of_card h (List.getElem?_eq_getElem hlt)
    cases hn.symm.trans hn'
    simp only [Option.map_some, map_entries_eq hresolve]

/-- The entries of a resolved layout make an assembly that mirrors the source. -/
lemma mirrors_ofEntries {path : String} {lines : List NumberedLine} {layout : Layout}
    {cards : List (List Entry)} (hlayout : Layout.ofLines lines = .ok layout)
    (hbeyond : unaddressable path layout = []) (h : resolveAll path layout = .ok cards) :
    Mirrors path lines (ofEntries path layout cards) := by
  have hpositions : cards.flatten.map (fun e => (e.card, e.index, e.instruction)) =
      (ofEntries path layout cards).program.positions := by
    rw [map_flatten_eq_positions h, Program.positions, Program.positions, cards_ofEntries hbeyond h]
  constructor
  case cards =>
    rw [← map_ofLines_eq_sourceCards]
    refine Layout.map_cards_eq hlayout fun hlay => ?_
    obtain ⟨hname, hdefined⟩ := Layout.heading_of_lay hlay
    rw [hname, hdefined]
  case cardCount => rw [cardCount_eq hbeyond h]; exact (List.length_map _).symm
  case positions => exact hpositions
  case instruction? =>
    intro e he
    rw [← Program.mem_positions_iff, ← hpositions]
    exact List.mem_map_of_mem he
  case lines => exact oneEach_lists hlayout (unaddressable_eq_nil_iff.1 hbeyond) h

/-- If reading fails, there is an error for each line that cannot be read. -/
lemma oneEach_unread {path : String} {source : List SourceLine} {errors : List Error}
    (h : sortOut (source.map (readLine path)) = .error errors) : OneEach (Unread path source) errors := by
  obtain ⟨rfl, -⟩ := sortOut_eq_error_iff.1 h
  have hzip : (source.map (readLine path)).filterMap error? =
      source.zipIdx.filterMap fun p => error? (readLine path p.1) := by
    conv_lhs => rw [← List.zipIdx_map_fst 0 source, List.map_map, List.filterMap_map]
    rfl
  rw [hzip]
  refine oneEach_filterMap ?_ ?_
  · intro k l e hl he
    dsimp only at he
    rw [readLine] at he
    split at he
    · cases he
    · next failure hparse =>
      cases he
      exact ⟨l, failure, hl, hparse, rfl⟩
  · rintro k e ⟨l, failure, hl, hparse, he⟩
    refine ⟨l, e, hl, ?_⟩
    dsimp only
    rw [readLine, hparse, he]
    rfl

/-- No error says that what a name means does not fit an argument. -/
lemma Explains.fault_ne_outOfRange {path content : String} {errors : List Error}
    (h : Explains path content errors) {e : Error} (he : e ∈ errors) (name : String) :
    e.fault ≠ .symbol (.outOfRange name) := by
  cases h with
  | unread h =>
    obtain ⟨k, _, _, -, -, rfl⟩ := h.exists_of_mem he
    rintro ⟨⟩
  | repeated _ _ _ _ hfault herrors =>
    rw [herrors, List.mem_singleton] at he
    subst he
    rcases hfault with hfault | hfault <;> rw [hfault] <;> rintro ⟨⟩
  | beyond _ _ _ hfault =>
    intro e'
    have := hfault e he
    rw [e'] at this
    cases this
  | unresolved _ _ _ h =>
    obtain ⟨k, _, _, written, _, -, -, -, rfl⟩ := h.exists_of_mem he
    intro hfault
    cases hop : written.opcode <;> rw [hop] at hfault <;> cases hfault

/-- The stage that stopped an assembly, and what it found. -/
inductive Stops (path content : String) (errors : List Error) : Prop where
  | unread :
    sortOut ((Source.extract path content).map (readLine path)) = .error errors →
    Stops path content errors
  | repeated {lines : List NumberedLine} {e : SymbolError} :
    Reads path content lines →
    Layout.ofLines lines = .error e →
    errors = [symbolError path e] →
    Stops path content errors
  | beyond {lines : List NumberedLine} {layout : Layout} :
    Reads path content lines →
    Layout.ofLines lines = .ok layout →
    unaddressable path layout ≠ [] →
    errors = unaddressable path layout →
    Stops path content errors
  | unresolved {lines : List NumberedLine} {layout : Layout} :
    Reads path content lines →
    Layout.ofLines lines = .ok layout →
    layout.Addressable →
    resolveAll path layout = .error errors →
    Stops path content errors

/-- A source that does not assemble stops at one of the stages. -/
lemma stops_of_ofSource {path content : String} {errors : List Error}
    (h : ofSource path content = .error errors) : Stops path content errors := by
  rw [ofSource] at h
  cases hread : sortOut ((Source.extract path content).map (readLine path)) with
  | error unread =>
    rw [ofLines_of_unread hread] at h
    cases h
    exact .unread hread
  | ok lines =>
    rw [sortOut_eq_ok_iff] at hread
    cases hlayout : Layout.ofLines lines with
    | error e =>
      rw [ofLines_of_repeated hread hlayout] at h
      cases h
      exact .repeated hread hlayout rfl
    | ok layout =>
      rw [ofLines_of_layout hread hlayout] at h
      split at h
      · next hbeyond =>
        cases hall : resolveAll path layout with
        | ok cards => rw [hall] at h; cases h
        | error unresolved =>
          rw [hall] at h
          cases h
          exact .unresolved hread hlayout (unaddressable_eq_nil_iff.1 hbeyond) hall
      · next hbeyond =>
        cases h
        exact .beyond hread hlayout hbeyond rfl

/-- The errors of a source that does not assemble explain why. -/
lemma explains_of_ofSource {path content : String} {errors : List Error}
    (h : ofSource path content = .error errors) : errors ≠ [] ∧ Explains path content errors := by
  cases stops_of_ofSource h with
  | unread h => exact ⟨(sortOut_eq_error_iff.1 h).2, .unread (oneEach_unread h)⟩
  | repeated hread hlayout herrors =>
    subst herrors
    obtain ⟨name, first, hfault⟩ := Layout.fault_of_layCards hlayout
    refine ⟨List.cons_ne_nil _ _, .repeated name first hread (fun once => ?_) ?_ rfl⟩
    · obtain ⟨layout, hlayout'⟩ := namesOnce_iff.1 once
      cases hlayout.symm.trans hlayout'
    · exact hfault.imp (congrArg Fault.symbol) (congrArg Fault.symbol)
  | beyond hread hlayout hbeyond herrors =>
    subst herrors
    have once := namesOnce_iff.2 ⟨_, hlayout⟩
    refine ⟨hbeyond, .beyond hread once (fun reach => hbeyond ?_) fun e => unaddressable_of_mem⟩
    exact unaddressable_eq_nil_iff.2 ((Layout.addressable_iff_inReach hlayout).2 reach)
  | unresolved hread hlayout hreach h =>
    have once := namesOnce_iff.2 ⟨_, hlayout⟩
    have inReach := (Layout.addressable_iff_inReach hlayout).1 hreach
    exact ⟨(resolveAll_eq_error_iff.1 h).2,
      .unresolved hread once inReach (oneEach_unresolved hlayout hreach h)⟩

/-- A source assembles exactly if its lines can be read, their names are given once and known where
they are used, and no index is too large. Then the assembly mirrors the source; else there are errors,
and they are those of the first stage that finds any. -/
theorem assembles_whole_or_not_at_all (path content : String) :
    ((∃ a, ofSource path content = .ok a) ↔
      ∃ lines, Reads path content lines ∧ NamesOnce lines ∧ InReach lines ∧ Resolved lines) ∧
    (∀ a, ofSource path content = .ok a →
      ∃ lines, Reads path content lines ∧ Mirrors path lines a) ∧
    ∀ errors, ofSource path content = .error errors →
      errors ≠ [] ∧ Explains path content errors ∧
        ∀ e ∈ errors, ∀ name, e.fault ≠ .symbol (.outOfRange name) := by
  refine ⟨⟨?_, ?_⟩, ?_, ?_⟩
  · rintro ⟨a, h⟩
    obtain ⟨lines, layout, cards, hread, hlayout, hbeyond, hcards, -⟩ := ofLines_eq_ok_iff.1 h
    have hreach : layout.Addressable := unaddressable_eq_nil_iff.1 hbeyond
    exact ⟨lines, hread, namesOnce_iff.2 ⟨layout, hlayout⟩,
      (Layout.addressable_iff_inReach hlayout).1 hreach,
      (exists_resolveAll_iff hlayout hreach).1 ⟨cards, hcards⟩⟩
  · rintro ⟨lines, hread, once, reach, resolved⟩
    obtain ⟨layout, hlayout⟩ := namesOnce_iff.1 once
    have hreach := (Layout.addressable_iff_inReach hlayout).2 reach
    obtain ⟨cards, hcards⟩ := (exists_resolveAll_iff hlayout hreach).2 resolved
    exact ⟨_, ofLines_eq_ok_iff.2
      ⟨lines, layout, cards, hread, hlayout, unaddressable_eq_nil_iff.2 hreach, hcards, rfl⟩⟩
  · intro a h
    obtain ⟨lines, layout, cards, hread, hlayout, hbeyond, hcards, rfl⟩ := ofLines_eq_ok_iff.1 h
    exact ⟨lines, hread, mirrors_ofEntries hlayout hbeyond hcards⟩
  · intro errors h
    obtain ⟨hne, explained⟩ := explains_of_ofSource h
    exact ⟨hne, explained, fun e he => explained.fault_ne_outOfRange he⟩

/-- Three of these instructions use a name that they cannot take. -/
def strayNames : String := "JMP dock\n.card dock\nLDA 1\nCRJ here\nhere: ADD here\nJBY here"

/-- `strayNames` does not assemble, and each of the three is told. -/
theorem strayNames_explained :
    ∃ errors, ofSource "stray.cards" strayNames = .error errors ∧
      errors.map (·.fault) = [.symbol (.undefinedLabel "dock"), .symbol (.undefinedCard "here"),
        .symbol (.symbolNotAllowed "here" .add)] ∧
      Explains "stray.cards" strayNames errors := by
  have herrors : ofSource "stray.cards" strayNames = .error
      [⟨.symbol (.undefinedLabel "dock"), some ⟨"stray.cards", 1, 5⟩⟩,
        ⟨.symbol (.undefinedCard "here"), some ⟨"stray.cards", 4, 5⟩⟩,
        ⟨.symbol (.symbolNotAllowed "here" .add), some ⟨"stray.cards", 5, 11⟩⟩] := by decide +kernel
  exact ⟨_, herrors, rfl, ((assembles_whole_or_not_at_all _ _).2.2 _ herrors).2.1⟩

end Assembly

end CardMachine
