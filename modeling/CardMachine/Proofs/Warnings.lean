import CardMachine.Proofs.ErrorOrder
import CardMachine.Proofs.Numeral

/-!
# What an assembler warns of

The warnings about sizes are made from the layout, and those about values from the listing. Here both
are said of what comes out and of what was written (`WarningsFit`). A card of the program has as many
instructions as the layout has for it, so the layout is too large exactly if the program is
(`concern_mem_sizeWarnings_iff`). A value that no register can hold has been written as a number: what
a name means is a position, or the way from one to another, and these are small
(`Layout.resolve_eq_large_iff`).
-/

namespace CardMachine

/-- A program is within capacity if it has at most 16 cards of at most 16 instructions. -/
lemma Program.withinCapacity_iff {p : Program} :
    p.withinCapacity = true ↔ p.cardCount ≤ 16 ∧ ∀ c, p.cardLength c ≤ 16 := by
  rw [withinCapacity, Bool.and_eq_true, decide_eq_true_eq, List.all_eq_true]
  refine and_congr_right fun _ => ?_
  simp only [decide_eq_true_eq]
  constructor
  · intro h c
    rw [cardLength, card, List.getD_eq_getElem?_getD]
    cases hc : p.cards[c]? with
    | none => exact Nat.zero_le _
    | some card => exact h card (List.mem_of_getElem? hc)
  · intro h card hcard
    obtain ⟨c, hc⟩ := List.mem_iff_getElem?.1 hcard
    have hlength := h c
    rw [cardLength, Program.card, List.getD_eq_getElem?_getD, hc] at hlength
    exact hlength

/-- An operand comes to a value that no register can hold exactly if it is written as this value. -/
lemma Layout.resolve_eq_large_iff {lines : List NumberedLine} {layout : Layout}
    (hlayout : ofLines lines = .ok layout) (hreach : layout.Addressable) {k i : Nat} {card : CardLayout}
    (hc : layout.cards[cardOf lines k]? = some card) {placed : PlacedInstruction}
    (hi : card.instructions[i]? = some placed) {v : Word} (hlarge : ¬(-999 ≤ v.toInt ∧ v.toInt ≤ 999)) :
    layout.resolve card i placed = .ok (.literal v) ↔ placed.written.operand = .literal v := by
  cases hoperand : placed.written.operand with
  | literal w => simp [resolve, hoperand]
  | register r => simp [resolve, hoperand]
  | symbol name =>
    constructor
    · intro h
      obtain ⟨w, e, hmeaning⟩ := resolve_symbol h hoperand
      cases e
      by_cases known : Known lines k name placed.written.opcode
      · have hlt : i < card.instructions.length := (List.getElem?_eq_some_iff.1 hi).1
        obtain ⟨meant, hmeant, hlo, hhi⟩ := meaning_of_known hlayout hreach hc hlt known
        cases hmeaning.symm.trans hmeant
        omega
      · cases hmeaning.symm.trans (meaning_of_not_known hlayout hc known)
    · rintro ⟨⟩

namespace Assembly

/-- Is it about a value, and not about a size? -/
def Concern.isValue : Concern → Bool
  | .literalSaturates _ => true
  | _ => false

/-- The warning says that no register can hold the number that the instruction on the line at `k` has
for its operand. -/
def Saturates (path : String) (lines : List NumberedLine) (k : Nat) (w : Warning) : Prop :=
  ∃ number label written value, lines[k]? = some ⟨number, .instruction label written⟩ ∧
    written.operand = .literal value ∧ ¬(-999 ≤ value.toInt ∧ value.toInt ≤ 999) ∧
    w = ⟨.literalSaturates value, ⟨path, number, written.column⟩⟩

/-- The warnings of an assembly are those that its program and the lines of its source call for. -/
structure WarningsFit (path content : String) (lines : List NumberedLine) (a : Assembly) : Prop where
  /-- Nothing is said of sizes exactly if the program stays within them. -/
  quiet : (∀ w ∈ a.warnings, (∀ n, w.concern ≠ .tooManyCards n) ∧ ∀ c n, w.concern ≠ .cardTooLong c n) ↔
    a.program.withinCapacity = true
  /-- The number of cards is told once if it is too large, and no other number is. -/
  tooManyCards (n : Nat) : (a.warnings.map (·.concern)).count (.tooManyCards n) =
    if 16 < a.program.cardCount ∧ n = a.program.cardCount then 1 else 0
  /-- The length of a card is told once if it is too large, and no other length is. -/
  cardTooLong (c n : Nat) : (a.warnings.map (·.concern)).count (.cardTooLong c n) =
    if 16 < a.program.cardLength c ∧ n = a.program.cardLength c then 1 else 0
  /-- Each number that is too large is told once, line by line. -/
  values : OneEach (Saturates path lines) (a.warnings.filter (·.concern.isValue))
  /-- This is the order of the program. -/
  order {j k : Nat} {w w' : Warning} (h : Saturates path lines j w) (h' : Saturates path lines k w')
    (hlt : j < k) : cardOf lines j < cardOf lines k ∨
      cardOf lines j = cardOf lines k ∧ positionOf lines j < positionOf lines k
  /-- Such a number is an argument in the program. -/
  instruction {k : Nat} {w : Warning} (h : Saturates path lines k w) :
    ∃ value opcode flag, w.concern = .literalSaturates value ∧
      a.program.instruction? (cardOf lines k) (positionOf lines k) = some ⟨opcode, .literal value, flag⟩
  /-- No other argument of the program is too large. -/
  arguments {c i : Nat} {opcode : Opcode} {flag : Option Flag} {value : Word}
    (h : a.program.instruction? c i = some ⟨opcode, .literal value, flag⟩)
    (hlarge : ¬(-999 ≤ value.toInt ∧ value.toInt ≤ 999)) :
    ∃ k w, Saturates path lines k w ∧ cardOf lines k = c ∧ positionOf lines k = i
  /-- Such a number is written where the warning says. -/
  written {k : Nat} {w : Warning} (h : Saturates path lines k w) :
    ∃ value word, w.concern = .literalSaturates value ∧ w.location.ShowsOperand content word ∧
      (Line.IsLiteral word.toList value.toInt ∨ Line.HasSecondSign word.toList value.toInt)
  /-- Nothing is said of an operand that is a name. -/
  names {k number : Nat} {label : Option String} {written : WrittenInstruction} {name : String}
    (hk : lines[k]? = some ⟨number, .instruction label written⟩) (hname : written.operand = .symbol name)
    {w : Warning} (hw : w ∈ a.warnings) (hvalue : w.concern.isValue = true) : w.location.line ≠ number

section values

variable {path : String} {lines : List NumberedLine} {layout : Layout}

/-- A warning on a value concerns a value. -/
lemma isValue_of_valueWarning? {e : Entry} {w : Warning} (h : valueWarning? e = some w) :
    w.concern.isValue = true := by
  obtain ⟨v, -, -, rfl⟩ := valueWarning?_eq_some_iff.1 h
  rfl

/-- An entry is made exactly where the operand can be resolved. -/
lemma toOption_resolveEntry_eq_some_iff {c : CardLayout} {card index : Nat} {placed : PlacedInstruction}
    {e : Entry} :
    (resolveEntry path layout c card placed index).toOption = some e ↔
      ∃ argument, layout.resolve c index placed = .ok argument ∧
        e = ⟨card, index, ⟨placed.written.opcode, argument, placed.written.flag⟩,
          ⟨path, placed.number, placed.written.column⟩⟩ := by
  rw [resolveEntry]
  cases layout.resolve c index placed <;> simp [Except.toOption, eq_comm]

variable (hlayout : Layout.ofLines lines = .ok layout) (hreach : layout.Addressable)
include hlayout hreach

/-- A line is warned of exactly if its operand is a number that no register can hold. -/
lemma valueWarning?_of_line_iff {k : Nat} {l : NumberedLine} (hl : lines[k]? = some l) {w : Warning} :
    ((resolution path layout (cardOf lines k) (positionOf lines k) l).bind fun result =>
      result.toOption.bind valueWarning?) = some w ↔ Saturates path lines k w := by
  cases hplaced : l.placed? with
  | none =>
    rw [resolution, hplaced]
    constructor
    · rintro ⟨⟩
    · rintro ⟨number, label, written, value, hl', -⟩
      cases hl.symm.trans hl'
      cases hplaced
  | some placed =>
    obtain ⟨label, rfl⟩ := NumberedLine.placed?_eq_some_iff.1 hplaced
    obtain ⟨card, hc, hi⟩ := Layout.exists_card_of_line hlayout hl
    have hresolve {v : Word} (hlarge : ¬(-999 ≤ v.toInt ∧ v.toInt ≤ 999)) :
        layout.resolve card (positionOf lines k) placed = .ok (.literal v) ↔
          placed.written.operand = .literal v :=
      Layout.resolve_eq_large_iff hlayout hreach hc hi hlarge
    rw [resolution, hplaced, hc]
    simp only [Option.bind_some, Option.map_some, Option.bind_eq_some_iff,
      toOption_resolveEntry_eq_some_iff, valueWarning?_eq_some_iff]
    constructor
    · rintro ⟨_, ⟨_, hargument, rfl⟩, v, rfl, hlarge, rfl⟩
      exact ⟨placed.number, label, placed.written, v, hl, (hresolve hlarge).1 hargument, hlarge, rfl⟩
    · rintro ⟨number, label', written, v, hl', hoperand, hlarge, rfl⟩
      cases hl.symm.trans hl'
      exact ⟨_, ⟨_, (hresolve hlarge).2 hoperand, rfl⟩, v, rfl, hlarge, rfl⟩

/-- There is a warning on a value for each literal that is out of range. -/
lemma oneEach_saturates {cards : List (List Entry)} (h : resolveAll path layout = .ok cards) :
    OneEach (Saturates path lines) (cards.flatten.filterMap valueWarning?) := by
  rw [flatten_eq_gatherLines hlayout h, Section.gatherLines, List.filterMap_filterMap,
    List.filterMap_filterMap]
  refine oneEach_filterMap (fun k l w hl hw => ?_) fun k w hw => ?_
  · exact (valueWarning?_of_line_iff hlayout hreach hl).1 hw
  · obtain ⟨number, label, written, value, hl, -⟩ := id hw
    exact ⟨_, w, hl, (valueWarning?_of_line_iff hlayout hreach hl).2 hw⟩

end values

section sizes

variable {file : String} {layout : Layout} {cards : List (List Entry)}

/-- No concern about sizes is told twice. -/
lemma nodup_sizeWarnings (file : String) (layout : Layout) :
    ((sizeWarnings file layout).map (·.concern)).Nodup := by
  rw [sizeWarnings_eq, beyond, List.map_append, List.nodup_append]
  refine ⟨?_, ?_, ?_⟩
  · cases layout.cards[recommendedCards]? <;> simp
  · rw [List.Nodup, List.pairwise_map, List.pairwise_filterMap]
    refine (pairwise_snd_zipIdx layout.cards).imp fun {p q} hlt w hw w' hw' => ?_
    obtain ⟨_, -, rfl⟩ := Option.map_eq_some_iff.1 hw
    obtain ⟨_, -, rfl⟩ := Option.map_eq_some_iff.1 hw'
    intro e
    exact Nat.ne_of_lt hlt (Concern.cardTooLong.inj e).1
  · intro x hx y hy
    obtain ⟨w, hw, rfl⟩ := List.mem_map.1 hx
    obtain ⟨w', hw', rfl⟩ := List.mem_map.1 hy
    obtain ⟨_, -, rfl⟩ := Option.map_eq_some_iff.1 (Option.mem_toList.1 hw)
    obtain ⟨_, -, hw'⟩ := List.mem_filterMap.1 hw'
    obtain ⟨_, -, rfl⟩ := Option.map_eq_some_iff.1 hw'
    rintro ⟨⟩

/-- A concern about sizes is told once or not at all. -/
lemma count_concern (file : String) (layout : Layout) (cards : List (List Entry)) {x : Concern}
    (hsize : x.isValue = false) :
    ((ofEntries file layout cards).warnings.map (·.concern)).count x =
      if x ∈ (sizeWarnings file layout).map (·.concern) then 1 else 0 := by
  have hvalues : ((cards.flatten.filterMap valueWarning?).map (·.concern)).count x = 0 := by
    refine List.count_eq_zero.2 fun hx => ?_
    obtain ⟨w, hw, rfl⟩ := List.mem_map.1 hx
    obtain ⟨e, -, hvalue⟩ := List.mem_filterMap.1 hw
    rw [isValue_of_valueWarning? hvalue] at hsize
    cases hsize
  calc ((ofEntries file layout cards).warnings.map (·.concern)).count x
    _ = ((sizeWarnings file layout).map (·.concern)).count x +
          ((cards.flatten.filterMap valueWarning?).map (·.concern)).count x := by
      rw [← List.count_append, ← List.map_append]
      rfl
    _ = ((sizeWarnings file layout).map (·.concern)).count x := by rw [hvalues, Nat.add_zero]
    _ = if x ∈ (sizeWarnings file layout).map (·.concern) then 1 else 0 :=
      (nodup_sizeWarnings file layout).count

/-- A warning on the size concerns no value. -/
lemma isValue_of_mem_sizeWarnings {w : Warning} (h : w ∈ sizeWarnings file layout) :
    w.concern.isValue = false := by
  rw [sizeWarnings_eq, mem_beyond_iff] at h
  rcases h with ⟨c, -, rfl⟩ | ⟨n, c, placed, -, -, rfl⟩ <;> rfl

/-- The warnings on values are those of the entries. -/
lemma filter_isValue_warnings (file : String) (layout : Layout) (cards : List (List Entry)) :
    (ofEntries file layout cards).warnings.filter (·.concern.isValue) =
      cards.flatten.filterMap valueWarning? := by
  have hsizes : (sizeWarnings file layout).filter (·.concern.isValue) = [] := by
    refine List.filter_eq_nil_iff.2 fun w hw => ?_
    rw [isValue_of_mem_sizeWarnings hw]
    exact Bool.false_ne_true
  have hvalues : (cards.flatten.filterMap valueWarning?).filter (·.concern.isValue) =
      cards.flatten.filterMap valueWarning? := by
    refine List.filter_eq_self.2 fun w hw => ?_
    obtain ⟨e, -, hvalue⟩ := List.mem_filterMap.1 hw
    exact isValue_of_valueWarning? hvalue
  rw [ofEntries, List.filter_append, hsizes, hvalues, List.nil_append]

variable (hbeyond : unaddressable file layout = []) (hcards : resolveAll file layout = .ok cards)
include hbeyond hcards

/-- A card of the program is as long as the layout has it. -/
lemma cardLength_eq {n : Nat} {c : CardLayout} (hc : layout.cards[n]? = some c) :
    (ofEntries file layout cards).program.cardLength n = c.instructions.length := by
  obtain ⟨entries, hcard, hresolve⟩ := card_eq hbeyond hcards hc
  rw [Program.cardLength, hcard, List.length_map, length_entries hresolve]

/-- What is told of sizes is told of the sizes of the program. -/
lemma concern_mem_sizeWarnings_iff {x : Concern} :
    x ∈ (sizeWarnings file layout).map (·.concern) ↔
      (16 < (ofEntries file layout cards).program.cardCount ∧
        x = .tooManyCards (ofEntries file layout cards).program.cardCount) ∨
      ∃ n, 16 < (ofEntries file layout cards).program.cardLength n ∧
        x = .cardTooLong n ((ofEntries file layout cards).program.cardLength n) := by
  have hcount := cardCount_eq hbeyond hcards
  have hlimit : recommendedCards = 16 := rfl
  simp only [sizeWarnings_eq, List.mem_map, mem_beyond_iff]
  constructor
  · rintro ⟨_, ⟨c, hc, rfl⟩ | ⟨n, c, placed, hc, hplaced, rfl⟩, rfl⟩
    · rw [hcount]
      exact .inl ⟨(List.getElem?_eq_some_iff.1 hc).1, rfl⟩
    · refine .inr ⟨n, ?_⟩
      rw [cardLength_eq hbeyond hcards hc]
      exact ⟨(List.getElem?_eq_some_iff.1 hplaced).1, rfl⟩
  · rintro (⟨hlarge, rfl⟩ | ⟨n, hlong, rfl⟩)
    · rw [hcount] at hlarge ⊢
      exact ⟨_, .inl ⟨_, List.getElem?_eq_getElem hlarge, rfl⟩, rfl⟩
    · obtain ⟨instruction, hi⟩ : ∃ i, (ofEntries file layout cards).program.instruction? n 16 = some i :=
        ⟨_, List.getElem?_eq_getElem hlong⟩
      have hlt : n < layout.cards.length := hcount ▸ Program.lt_cardCount_of_instruction? hi
      have hc := List.getElem?_eq_getElem hlt
      rw [cardLength_eq hbeyond hcards hc] at hlong ⊢
      exact ⟨_, .inr ⟨n, _, _, hc, List.getElem?_eq_getElem hlong, rfl⟩, rfl⟩

/-- There is one warning on the number of cards if there are too many, and it tells the number. -/
lemma count_tooManyCards (n : Nat) :
    ((ofEntries file layout cards).warnings.map (·.concern)).count (.tooManyCards n) =
      if 16 < (ofEntries file layout cards).program.cardCount ∧
        n = (ofEntries file layout cards).program.cardCount then 1 else 0 := by
  rw [count_concern file layout cards rfl]
  apply if_congr _ rfl rfl
  rw [concern_mem_sizeWarnings_iff hbeyond hcards]
  simp

/-- There is one warning on a card if it is too long, and it tells its length. -/
lemma count_cardTooLong (c n : Nat) :
    ((ofEntries file layout cards).warnings.map (·.concern)).count (.cardTooLong c n) =
      if 16 < (ofEntries file layout cards).program.cardLength c ∧
        n = (ofEntries file layout cards).program.cardLength c then 1 else 0 := by
  rw [count_concern file layout cards rfl]
  apply if_congr _ rfl rfl
  rw [concern_mem_sizeWarnings_iff hbeyond hcards]
  constructor
  · rintro (⟨-, ⟨⟩⟩ | ⟨_, hlong, ⟨⟩⟩)
    exact ⟨hlong, rfl⟩
  · rintro ⟨hlong, rfl⟩
    exact .inr ⟨c, hlong, rfl⟩

/-- Nothing is said of sizes exactly if the program stays within them. -/
lemma silent_iff_withinCapacity :
    (∀ w ∈ (ofEntries file layout cards).warnings,
      (∀ n, w.concern ≠ .tooManyCards n) ∧ ∀ c n, w.concern ≠ .cardTooLong c n) ↔
    (ofEntries file layout cards).program.withinCapacity = true := by
  have hcount : (∀ w ∈ (ofEntries file layout cards).warnings,
        (∀ n, w.concern ≠ .tooManyCards n) ∧ ∀ c n, w.concern ≠ .cardTooLong c n) ↔
      (∀ n, ((ofEntries file layout cards).warnings.map (·.concern)).count (.tooManyCards n) = 0) ∧
      ∀ c n, ((ofEntries file layout cards).warnings.map (·.concern)).count (.cardTooLong c n) = 0 := by
    simp only [List.count_eq_zero, List.mem_map, not_exists, not_and]
    constructor
    · intro h
      exact ⟨fun n w hw => (h w hw).1 n, fun c n w hw => (h w hw).2 c n⟩
    · intro h w hw
      exact ⟨fun n => h.1 n w hw, fun c n => h.2 c n w hw⟩
  rw [hcount, Program.withinCapacity_iff]
  simp [count_tooManyCards hbeyond hcards, count_cardTooLong hbeyond hcards]

end sizes

section assembled

variable {path content : String} {lines : List NumberedLine}

/-- The number is written where the warning says. -/
lemma Saturates.exists_word (hread : Reads path content lines) {k : Nat} {w : Warning}
    (h : Saturates path lines k w) :
    ∃ value word, w.concern = .literalSaturates value ∧ w.location.ShowsOperand content word ∧
      (Line.IsLiteral word.toList value.toInt ∨ Line.HasSecondSign word.toList value.toInt) := by
  obtain ⟨number, label, written, value, hk, hoperand, -, rfl⟩ := h
  obtain ⟨-, word, hword, hread⟩ := hread.showsOperand (List.mem_of_getElem? hk)
  rw [hoperand] at hread
  exact ⟨value, word, rfl, hword, Line.isLiteral_of_readOperand hread⟩

/-- No line with a number for its operand has a name for it. -/
lemma Saturates.line_ne (hread : Reads path content lines) {j k number : Nat} {label : Option String}
    {written : WrittenInstruction} {name : String} {w : Warning} (h : Saturates path lines j w)
    (hk : lines[k]? = some ⟨number, .instruction label written⟩)
    (hname : written.operand = .symbol name) : w.location.line ≠ number := by
  obtain ⟨number', label', written', value, hj, hoperand, -, rfl⟩ := h
  intro hnumber
  obtain rfl : j = k := hread.eq_of_number_eq hj hk hnumber
  cases hj.symm.trans hk
  cases hoperand.symm.trans hname

variable {layout : Layout} {cards : List (List Entry)} (hlayout : Layout.ofLines lines = .ok layout)
  (hbeyond : unaddressable path layout = []) (hcards : resolveAll path layout = .ok cards)
include hlayout hbeyond hcards

/-- A number that no register can hold gets into the program as it is. -/
lemma Saturates.exists_instruction {k : Nat} {w : Warning} (h : Saturates path lines k w) :
    ∃ value opcode flag, w.concern = .literalSaturates value ∧
      (ofEntries path layout cards).program.instruction? (cardOf lines k) (positionOf lines k) =
        some ⟨opcode, .literal value, flag⟩ := by
  obtain ⟨number, label, written, value, hk, hoperand, hlarge, rfl⟩ := h
  obtain ⟨c, hc, hi⟩ := Layout.exists_card_of_line hlayout hk
  obtain ⟨argument, hargument, hinstruction⟩ := instruction?_eq hbeyond hcards hc hi
  rw [Layout.resolve, hoperand] at hargument
  cases hargument
  exact ⟨value, _, _, rfl, hinstruction⟩

/-- Each instruction of the program is written on a line. -/
lemma exists_line_of_instruction? {c i : Nat} {instruction : Instruction}
    (h : (ofEntries path layout cards).program.instruction? c i = some instruction) :
    ∃ k number label written, lines[k]? = some ⟨number, .instruction label written⟩ ∧
      cardOf lines k = c ∧ positionOf lines k = i := by
  have hlt : c < layout.cards.length :=
    cardCount_eq hbeyond hcards ▸ Program.lt_cardCount_of_instruction? h
  have hc := List.getElem?_eq_getElem hlt
  have hi := Program.lt_cardLength_of_instruction? h
  rw [cardLength_eq hbeyond hcards hc] at hi
  have hplaced : layout.cards[c]?.bind (·.instructions[i]?) = some layout.cards[c].instructions[i] := by
    rw [hc]
    exact List.getElem?_eq_getElem hi
  obtain ⟨k, label, hk, hplace⟩ := (Layout.partitions_of_ofLines hlayout).instruction.1 hplaced
  exact ⟨k, _, label, _, hk, hplace⟩

/-- A value that no register can hold gets into the program from a number. -/
lemma exists_saturates {c i : Nat} {opcode : Opcode} {flag : Option Flag} {value : Word}
    (h : (ofEntries path layout cards).program.instruction? c i = some ⟨opcode, .literal value, flag⟩)
    (hlarge : ¬(-999 ≤ value.toInt ∧ value.toInt ≤ 999)) :
    ∃ k w, Saturates path lines k w ∧ cardOf lines k = c ∧ positionOf lines k = i := by
  obtain ⟨k, number, label, written, hk, rfl, rfl⟩ := exists_line_of_instruction? hlayout hbeyond hcards h
  obtain ⟨card, hc, hi⟩ := Layout.exists_card_of_line hlayout hk
  obtain ⟨argument, hargument, hinstruction⟩ := instruction?_eq hbeyond hcards hc hi
  cases h.symm.trans hinstruction
  have hreach : layout.Addressable := unaddressable_eq_nil_iff.1 hbeyond
  have hoperand := (Layout.resolve_eq_large_iff hlayout hreach hc hi hlarge).1 hargument
  exact ⟨k, _, ⟨number, label, written, value, hk, hoperand, hlarge, rfl⟩, rfl, rfl⟩

end assembled

/-- The warnings of an assembly are exactly those that its program and its source call for: about its
sizes, and about each number that no register can hold. -/
theorem warnings_fit_program {path content : String} {a : Assembly} (h : ofSource path content = .ok a) :
    ∃ lines, Reads path content lines ∧ WarningsFit path content lines a := by
  obtain ⟨lines, layout, cards, hread, hlayout, hbeyond, hcards, rfl⟩ := ofLines_eq_ok_iff.1 h
  have hvalues := oneEach_saturates hlayout (unaddressable_eq_nil_iff.1 hbeyond) hcards
  rw [← filter_isValue_warnings path layout] at hvalues
  refine ⟨lines, hread, ?_⟩
  constructor
  case quiet => exact silent_iff_withinCapacity hbeyond hcards
  case tooManyCards => exact count_tooManyCards hbeyond hcards
  case cardTooLong => exact count_cardTooLong hbeyond hcards
  case values => exact hvalues
  case order =>
    intro j k w w' ⟨_, _, _, _, hj, _⟩ ⟨_, _, _, _, hk, _⟩ hlt
    exact place_lt_of_lt hj hk hlt
  case instruction =>
    intro k w h
    exact h.exists_instruction hlayout hbeyond hcards
  case arguments =>
    intro c i opcode flag value h hlarge
    exact exists_saturates hlayout hbeyond hcards h hlarge
  case written =>
    intro k w h
    exact h.exists_word hread
  case names =>
    intro k number label written name hk hname w hw hvalue
    obtain ⟨j, h⟩ := hvalues.exists_of_mem (List.mem_filter.2 ⟨hw, hvalue⟩)
    exact h.line_ne hread hk hname

/-- Lines, and how they are read: a card too many, an instruction too many on the first card, and two
numbers that no register can hold. -/
def crowded : List (String × Line) :=
  [("top: LDA 0x-7D0", Line.instruction (some "top") ⟨none, .lda, .literal (-2000), 10⟩),
    ("CRD last", Line.instruction none ⟨none, .crd, .symbol "last", 5⟩)] ++
  List.replicate 15 ("JBY top", Line.instruction none ⟨none, .jby, .symbol "top", 5⟩) ++
  List.replicate 15 (".card", Line.card none) ++
  [(".card last", Line.card (some "last")),
    ("POS ADD +1000", Line.instruction none ⟨some .pos, .add, .literal 1000, 9⟩)]

/-- The text of `crowded`. -/
def crowdedText : String := String.join ((crowded.map Prod.fst).map (· ++ "\n"))

/-- What is told of `crowdedText` fits it. -/
theorem crowdedText_warned :
    ∃ a, ofSource "crowded.cards" crowdedText = .ok a ∧
      a.warnings.map (·.concern) =
        [.tooManyCards 17, .cardTooLong 0 17, .literalSaturates (-2000), .literalSaturates 1000] ∧
      ∃ lines, Reads "crowded.cards" crowdedText lines ∧
        WarningsFit "crowded.cards" crowdedText lines a := by
  have hlines : ∀ p ∈ crowded, (p.1 ≠ "" ∧ '\n' ∉ p.1.toList ∧ '\r' ∉ p.1.toList) ∧
      Line.parse p.1 = .ok p.2 := by decide +kernel
  have hread : Reads "crowded.cards" crowdedText (crowded.zipIdx.map fun p => ⟨p.2 + 1, p.1.2⟩) :=
    @reads_of_plain _ (by decide +kernel) crowded (fun p hp => (hlines p hp).1) fun p hp => (hlines p hp).2
  have hwarnings : (ofSource "crowded.cards" crowdedText).map (fun a => a.warnings.map (·.concern)) =
      .ok [.tooManyCards 17, .cardTooLong 0 17, .literalSaturates (-2000), .literalSaturates 1000] := by
    rw [ofSource_of_reads hread]
    decide +kernel
  obtain ⟨a, ha, hconcerns⟩ := map_eq_ok_iff.1 hwarnings
  exact ⟨a, ha, hconcerns, warnings_fit_program ha⟩

end Assembly

end CardMachine
