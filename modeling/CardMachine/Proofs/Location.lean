import CardMachine.Proofs.Blocks
import CardMachine.Proofs.Grammar
import CardMachine.Proofs.Partition

/-!
# Places in a source

What an assembler tells of a source, it tells with a place: the number of a line of the file and a
column of this line, in bytes (`PointsInto`). Each line keeps its number when it is taken out of the file,
read and laid out, so only columns have to be followed. A token stands in its line where its column says
(`Token.exists_split_of_mem`), a line that cannot be read is told with the start or the end of a token
(`Line.atToken_of_ofTokens`), and an instruction keeps the column of its operand
(`Line.exists_operandAt`).
-/

namespace CardMachine

/-- The length counts the bytes of the text in UTF-8. -/
lemma Text.byteLength_toList (text : String) : Text.byteLength text.toList = text.utf8ByteSize := by
  have hlist (cs : List Char) : Text.byteLength cs = String.utf8Len cs := by
    induction cs with
    | nil => rfl
    | cons c cs ih => rw [byteLength_cons, ih, String.utf8Len_cons, Nat.add_comm]
  rw [hlist, ← String.utf8ByteSize_ofList, String.ofList_toList]

/-- A token stands in its line where its column says. -/
lemma Token.exists_split_of_mem {line : String} {t : Token} (h : t ∈ ofLine line) :
    ∃ front back, line = front ++ (t.text ++ back) ∧ t.column = front.utf8ByteSize + 1 := by
  have hpart : uncommented line <+: line.toList := List.takeWhile_prefix _
  obtain ⟨comment, hline⟩ := hpart
  have hrun := mem_scan_iff.1 h
  generalize uncommented line = text at hrun hline
  cases hrun with
  | @mk front word back =>
    refine ⟨.ofList front, .ofList (back ++ comment), ?_, ?_⟩
    · rw [← String.toList_inj, ← hline]
      simp
    · dsimp only
      rw [← Text.byteLength_toList, String.toList_ofList, Nat.add_comm]

/-- A token lies within its line. -/
lemma Token.column_of_mem {line : String} {t : Token} (h : t ∈ ofLine line) :
    1 ≤ t.column ∧ t.column ≤ t.endColumn ∧ t.endColumn ≤ line.utf8ByteSize + 1 := by
  obtain ⟨front, back, rfl, hcolumn⟩ := exists_split_of_mem h
  rw [endColumn, Text.byteLength_toList, String.utf8ByteSize_append, String.utf8ByteSize_append]
  omega

namespace Line

/-- The line is an instruction whose operand is written `word`, and starts at this column, in bytes
from 1. -/
structure OperandAt (text : String) (column : Nat) (word : String) : Prop where
  phrase : ∃ mark flag mnemonic line,
    Token.AreTokens text (Phrase.instruction mark flag mnemonic ⟨column, word⟩).tokens ∧
    (Phrase.instruction mark flag mnemonic ⟨column, word⟩).Means line
  offset : ∃ front back, text = front ++ (word ++ back) ∧ column = front.utf8ByteSize + 1

/-- An operand starts within its line. -/
lemma OperandAt.column_pos {text : String} {column : Nat} {word : String}
    (h : OperandAt text column word) : 1 ≤ column ∧ column ≤ text.utf8ByteSize + 1 := by
  obtain ⟨front, back, rfl, rfl⟩ := h.offset
  rw [String.utf8ByteSize_append]
  omega

/-- The error is at the start or at the end of one of the tokens. -/
def AtToken (tokens : List Token) (e : LineError) : Prop :=
  ∃ t ∈ tokens, e.column = t.column ∨ e.column = t.endColumn

/-- An error at the start of a token. -/
lemma AtToken.start {tokens : List Token} {t : Token} (ht : t ∈ tokens) (fault : LineFault) :
    AtToken tokens ⟨t.column, fault⟩ :=
  ⟨t, ht, .inl rfl⟩

/-- An error at one of some tokens is at one of more. -/
lemma AtToken.mono {tokens tokens' : List Token} {e : LineError} (h : AtToken tokens e)
    (hsub : tokens ⊆ tokens') : AtToken tokens' e := by
  obtain ⟨t, ht, he⟩ := h
  exact ⟨t, hsub ht, he⟩

/-- A bad name is told of where it stands. -/
lemma column_of_readName {name : String} {column : Nat} {e : LineError}
    (h : readName name column = .error e) : e.column = column := by
  rw [readName] at h
  split at h
  · cases h; rfl
  · split at h <;> cases h; rfl

/-- A bad operand is told of where it stands. -/
lemma column_of_readOperand {token : Token} {e : LineError} (h : readOperand token = .error e) :
    e.column = token.column := by
  rw [readOperand] at h
  split at h
  · cases h
  · split at h
    · cases h
    · split at h <;> cases h; rfl

/-- What is wrong with a directive is told of at one of its tokens. -/
lemma atToken_of_readDirective {name : String} {first : Token} {args : List Token} {e : LineError}
    (h : readDirective name first.column args = .error e) : AtToken (first :: args) e := by
  rw [readDirective.eq_def] at h
  split at h
  · cases h
    exact .start (by simp) _
  · split at h
    · cases h
    · next arg => exact ⟨arg, by simp, .inl (column_of_readName (map_eq_error_iff.1 h))⟩
    · cases h
      exact .start (by simp) _

/-- What is wrong with operands is told of at one of them, or at the end of the mnemonic. -/
lemma atToken_of_readOperands {flag : Option Flag} {mnemonic : Token} {operands : List Token}
    {e : LineError} (h : readOperands flag mnemonic operands = .error e) :
    AtToken (mnemonic :: operands) e := by
  rw [readOperands.eq_def] at h
  split at h
  · cases h
    exact .start (by simp) _
  · split at h
    · cases h
      exact ⟨mnemonic, by simp, .inr rfl⟩
    · next token => exact ⟨token, by simp, .inl (column_of_readOperand (map_eq_error_iff.1 h))⟩
    · cases h
      exact .start (by simp) _

/-- What is wrong with an instruction is told of at one of its tokens. -/
lemma atToken_of_readInstruction {first : Token} {rest : List Token} {e : LineError}
    (h : readInstruction first rest = .error e) : AtToken (first :: rest) e := by
  rw [readInstruction.eq_def] at h
  split at h
  · exact atToken_of_readOperands h
  · split at h
    · cases h
      exact ⟨first, by simp, .inr rfl⟩
    · exact (atToken_of_readOperands h).mono (by simp)

/-- What is wrong with tokens is wrong with one of them, and is told at its start or at its end. -/
lemma atToken_of_ofTokens {tokens : List Token} {e : LineError} (h : ofTokens tokens = .error e) :
    AtToken tokens e := by
  cases tokens with
  | nil => cases h
  | cons first rest =>
    rw [ofTokens.eq_def] at h
    dsimp only at h
    split at h
    · exact atToken_of_readDirective h
    · split at h
      · exact atToken_of_readInstruction (map_eq_error_iff.1 h)
      · split at h
        · next hname =>
          cases h
          exact ⟨first, by simp, .inl (column_of_readName hname)⟩
        · split at h
          · cases h
          · exact (atToken_of_readInstruction (map_eq_error_iff.1 h)).mono (by simp)

/-- What is wrong with a line is told of within the line. -/
lemma column_of_parse {text : String} {e : LineError} (h : parse text = .error e) :
    1 ≤ e.column ∧ e.column ≤ text.utf8ByteSize + 1 := by
  obtain ⟨t, ht, he⟩ := atToken_of_ofTokens h
  have hcolumn := Token.column_of_mem ht
  omega

/-- A symbol is read as it is written. -/
lemma text_of_readOperand {token : Token} {name : String}
    (h : readOperand token = .ok (.symbol name)) : token.text = name := by
  rw [readOperand] at h
  split at h
  · cases h
  · split at h
    · cases h; rfl
    · split at h <;> cases h

/-- The operand of an instruction stands where the instruction says, and is read from there. -/
lemma exists_operandAt {text : String} {label : Option String} {written : WrittenInstruction}
    (h : parse text = .ok (.instruction label written)) :
    ∃ word, OperandAt text written.column word ∧
      readOperand ⟨written.column, word⟩ = .ok written.operand := by
  obtain ⟨phrase, htokens, means⟩ := ofTokens_eq_ok_iff.1 h
  cases id means with
  | @instruction mark flag _ _ mnemonic token _ _ _ _ _ hoperand =>
    refine ⟨token.text, ⟨⟨mark, flag, mnemonic, _, ?_, means⟩, ?_⟩, hoperand⟩
    · exact Token.areTokens_iff.2 htokens
    · exact Token.exists_split_of_mem (htokens ▸ by simp [Phrase.tokens])

end Line

/-- The place is in the file: its line is one of the lines, and its column is in this line or right
after it, in bytes from 1. -/
structure SourceLocation.PointsInto (place : SourceLocation) (path content : String) : Prop where
  file : place.file = path
  line : 1 ≤ place.line ∧ place.line ≤ (Text.lines content).length
  column {text : String} (h : (Text.lines content)[place.line - 1]? = some text) :
    1 ≤ place.column ∧ place.column ≤ text.utf8ByteSize + 1

/-- The operand of the instruction on the line of the place is written `word`, and starts there. -/
def SourceLocation.ShowsOperand (place : SourceLocation) (content word : String) : Prop :=
  ∃ text, (Text.lines content)[place.line - 1]? = some text ∧ Line.OperandAt text place.column word

namespace Source

/-- Card source has the lines of its file under their numbers. -/
lemma getElem?_lines_of_mem {path content : String} {l : SourceLine} (h : l ∈ extract path content) :
    1 ≤ l.number ∧ (Text.lines content)[l.number - 1]? = some l.text := by
  have hmem := (extract_sublist path content).subset h
  rw [numbered_eq] at hmem
  obtain ⟨⟨text, k⟩, hk, rfl⟩ := List.mem_map.1 hmem
  exact ⟨Nat.le_add_left 1 k, List.mk_mem_zipIdx_iff_getElem?.1 hk⟩

/-- Card source comes in the order of its numbers. -/
lemma number_lt {path content : String} {j k : Nat} {l l' : SourceLine}
    (hl : (extract path content)[j]? = some l) (hl' : (extract path content)[k]? = some l')
    (hlt : j < k) : l.number < l'.number := by
  have hpairwise := (pairwise_numbered content).sublist (extract_sublist path content)
  obtain ⟨hj, rfl⟩ := List.getElem?_eq_some_iff.1 hl
  obtain ⟨hk, rfl⟩ := List.getElem?_eq_some_iff.1 hl'
  exact List.pairwise_iff_getElem.1 hpairwise j k hj hk hlt

/-- A column of a line is a place of the file. -/
lemma pointsInto_of_mem {path content : String} {l : SourceLine} (h : l ∈ extract path content)
    {column : Nat} (hcolumn : 1 ≤ column ∧ column ≤ l.text.utf8ByteSize + 1) :
    SourceLocation.PointsInto ⟨path, l.number, column⟩ path content := by
  obtain ⟨hpos, htext⟩ := getElem?_lines_of_mem h
  have hlt : l.number - 1 < (Text.lines content).length := (List.getElem?_eq_some_iff.1 htext).1
  refine ⟨rfl, ⟨hpos, show l.number ≤ _ by omega⟩, fun {text} h' => ?_⟩
  obtain rfl : l.text = text := Option.some.inj (htext.symm.trans h')
  exact hcolumn

end Source

namespace Assembly

section reads

variable {path content : String} {lines : List NumberedLine} (hread : Reads path content lines)
include hread

/-- A line that is read is a line of the file, with its number. -/
lemma Reads.exists_getElem? {k : Nat} {l : NumberedLine} (hl : lines[k]? = some l) :
    ∃ text, (Source.extract path content)[k]? = some ⟨l.number, text⟩ ∧
      Line.parse text = .ok l.line := by
  have h := congrArg (·[k]?) hread
  simp only [List.getElem?_map, hl, Option.map_some] at h
  obtain ⟨⟨number, text⟩, hsource, h⟩ := Option.map_eq_some_iff.1 h
  rw [readLine] at h
  split at h
  · next line hparse =>
    cases h
    exact ⟨text, hsource, hparse⟩
  · cases h

/-- A line that was read is a line of the source. -/
lemma Reads.exists_mem {l : NumberedLine} (hl : l ∈ lines) :
    ∃ text, ⟨l.number, text⟩ ∈ Source.extract path content ∧ Line.parse text = .ok l.line := by
  obtain ⟨k, hk⟩ := List.mem_iff_getElem?.1 hl
  obtain ⟨text, hsource, hparse⟩ := hread.exists_getElem? hk
  exact ⟨text, List.mem_of_getElem? hsource, hparse⟩

/-- Lines that are read come in the order of their numbers. -/
lemma Reads.number_lt {j k : Nat} {l l' : NumberedLine} (hl : lines[j]? = some l)
    (hl' : lines[k]? = some l') (hlt : j < k) : l.number < l'.number := by
  obtain ⟨text, hj, -⟩ := hread.exists_getElem? hl
  obtain ⟨text', hk, -⟩ := hread.exists_getElem? hl'
  exact Source.number_lt hj hk hlt

/-- No two lines have one number. -/
lemma Reads.eq_of_number_eq {j k : Nat} {l l' : NumberedLine} (hl : lines[j]? = some l)
    (hl' : lines[k]? = some l') (h : l.number = l'.number) : j = k := by
  rcases Nat.lt_trichotomy j k with hlt | e | hlt
  · exact absurd h (Nat.ne_of_lt (hread.number_lt hl hl' hlt))
  · exact e
  · exact absurd h (Nat.ne_of_gt (hread.number_lt hl' hl hlt))

/-- The first column of a line that is read. -/
lemma Reads.pointsInto {l : NumberedLine} (hl : l ∈ lines) :
    SourceLocation.PointsInto ⟨path, l.number, 1⟩ path content := by
  obtain ⟨text, hsource, -⟩ := hread.exists_mem hl
  exact Source.pointsInto_of_mem hsource ⟨le_rfl, by omega⟩

/-- The operand of an instruction that is read. -/
lemma Reads.showsOperand {number : Nat} {label : Option String} {written : WrittenInstruction}
    (hl : ⟨number, .instruction label written⟩ ∈ lines) :
    SourceLocation.PointsInto ⟨path, number, written.column⟩ path content ∧
      ∃ word, SourceLocation.ShowsOperand ⟨path, number, written.column⟩ content word ∧
        Line.readOperand ⟨written.column, word⟩ = .ok written.operand := by
  obtain ⟨text, hsource, hparse⟩ := hread.exists_mem hl
  obtain ⟨word, hword, hoperand⟩ := Line.exists_operandAt hparse
  exact ⟨Source.pointsInto_of_mem hsource hword.column_pos, word,
    ⟨text, (Source.getElem?_lines_of_mem hsource).2, hword⟩, hoperand⟩

end reads

/-- The line with this number is read, and gives the name. -/
def Defines (path content : String) (n : Naming) (number : Nat) : Prop :=
  ∃ lines k text line, Reads path content lines ∧ lines[k]? = some ⟨number, line⟩ ∧ n.At lines k ∧
    (Text.lines content)[number - 1]? = some text ∧ Line.parse text = .ok line

/-- A name is defined on the line that gives it. -/
lemma Reads.defines {path content : String} {lines : List NumberedLine}
    (hread : Reads path content lines) {n : Naming} {k : Nat} {l : NumberedLine}
    (hl : lines[k]? = some l) (hn : n.At lines k) : Defines path content n l.number := by
  obtain ⟨text, hsource, hparse⟩ := hread.exists_mem (List.mem_of_getElem? hl)
  exact ⟨lines, k, text, l.line, hread, hl, hn, (Source.getElem?_lines_of_mem hsource).2, hparse⟩

/-- What is at the place of a fault in a name: the name again that an earlier line gives, or the operand
that is this name. -/
def SymbolFaultAt (path content : String) (place : SourceLocation) : SymbolFault → Prop
  | .duplicateLabel name first => first < place.line ∧ ∃ c, Defines path content (.label c name) first ∧
      Defines path content (.label c name) place.line
  | .duplicateCard name first => first < place.line ∧ Defines path content (.card name) first ∧
      Defines path content (.card name) place.line
  | .undefinedLabel name | .undefinedCard name | .symbolNotAllowed name _ | .outOfRange name =>
    place.ShowsOperand content name

/-- An error has a place in the file, and what it says of a name is to be seen there. -/
def Error.InPlace (path content : String) (e : Error) : Prop :=
  ∃ place, e.location = some place ∧ place.PointsInto path content ∧
    ∀ fault, e.fault = .symbol fault → SymbolFaultAt path content place fault

/-- A warning has a place in the file, and one about a value has it at an operand. -/
structure Warning.InPlace (path content : String) (w : Warning) : Prop where
  pointsInto : w.location.PointsInto path content
  operand {value : Word} (h : w.concern = .literalSaturates value) :
    ∃ word, w.location.ShowsOperand content word

/-- An entry has its place at the operand of its instruction in the file. -/
structure Entry.InPlace (path content : String) (e : Entry) : Prop where
  pointsInto : e.location.PointsInto path content
  operand : ∃ word, e.location.ShowsOperand content word
  instruction : ∃ text label operand, (Text.lines content)[e.location.line - 1]? = some text ∧
    Line.parse text = .ok
      (.instruction label ⟨e.instruction.flag, e.instruction.opcode, operand, e.location.column⟩)

section errors

variable {path content : String}

/-- An error in a line is told of at its place. -/
lemma Unread.inPlace {k : Nat} {e : Error} (h : Unread path (Source.extract path content) k e) :
    e.InPlace path content := by
  obtain ⟨l, failure, hl, hparse, rfl⟩ := h
  refine ⟨_, rfl, ?_, nofun⟩
  exact Source.pointsInto_of_mem (List.mem_of_getElem? hl) (Line.column_of_parse hparse)

variable {lines : List NumberedLine} (hread : Reads path content lines)
include hread

/-- A name that is given twice is told of at the second place, with the line of the first. -/
lemma inPlace_of_tellsFirstRepeat {e : SymbolError} (h : TellsFirstRepeat lines e) :
    (symbolError path e).InPlace path content := by
  obtain ⟨n, j, k, first, l, -, hk, hj, hlt, hfirst, hl, rfl⟩ := h
  have hdefines := hread.defines hfirst hj.1
  have hagain := hread.defines hl hk
  have hnumber := hread.number_lt hfirst hl hlt
  refine ⟨_, rfl, hread.pointsInto (List.mem_of_getElem? hl), ?_⟩
  rintro _ ⟨⟩
  cases n with
  | label c name => exact ⟨hnumber, c, hdefines, hagain⟩
  | card name => exact ⟨hnumber, hdefines, hagain⟩

/-- An operand that cannot be resolved is told of at its place. -/
lemma Unresolved.inPlace {k : Nat} {e : Error} (h : Unresolved path lines k e) :
    e.InPlace path content := by
  obtain ⟨number, label, written, name, hl, hname, -, rfl⟩ := h
  obtain ⟨hplace, word, hword, hoperand⟩ := hread.showsOperand (List.mem_of_getElem? hl)
  rw [hname] at hoperand
  obtain rfl : word = name := Line.text_of_readOperand hoperand
  refine ⟨_, rfl, hplace, ?_⟩
  rintro _ ⟨⟩
  rw [unknownFault.eq_def]
  cases written.opcode <;> exact hword

end errors

section layouts

/-- What is told of a layout that is too large: its first card too many, and on each card the first
instruction too many. -/
def beyond {β : Type} (limit : Nat) (card : CardLayout → β)
    (instruction : CardLayout × Nat → PlacedInstruction → β) (layout : Layout) : List β :=
  (layout.cards[limit]?.map card).toList ++
    layout.cards.zipIdx.filterMap fun p => p.1.instructions[limit]?.map (instruction p)

/-- What is told of a large layout is of the first card too many, or of an instruction too many on
one of its cards. -/
lemma mem_beyond_iff {β : Type} {limit : Nat} {card : CardLayout → β}
    {instruction : CardLayout × Nat → PlacedInstruction → β} {layout : Layout} {x : β} :
    x ∈ beyond limit card instruction layout ↔
      (∃ c, layout.cards[limit]? = some c ∧ card c = x) ∨
      ∃ n c placed, layout.cards[n]? = some c ∧ c.instructions[limit]? = some placed ∧
        instruction (c, n) placed = x := by
  rw [beyond, List.mem_append, Option.mem_toList, Option.map_eq_some_iff, List.mem_filterMap]
  refine or_congr_right ⟨?_, ?_⟩
  · rintro ⟨⟨c, n⟩, hc, hx⟩
    obtain ⟨placed, hplaced, hx⟩ := Option.map_eq_some_iff.1 hx
    exact ⟨n, c, placed, List.mk_mem_zipIdx_iff_getElem?.1 hc, hplaced, hx⟩
  · rintro ⟨n, c, placed, hc, hplaced, hx⟩
    exact ⟨(c, n), List.mk_mem_zipIdx_iff_getElem?.2 hc, Option.map_eq_some_iff.2 ⟨placed, hplaced, hx⟩⟩

/-- The errors on the size look for what is beyond the addressable limit. -/
lemma unaddressable_eq (file : String) (layout : Layout) :
    unaddressable file layout =
      beyond addressableLimit
        (fun c => ⟨.unaddressableCard addressableLimit, some ⟨file, c.definedAt, 1⟩⟩)
        (fun p placed => ⟨.unaddressableInstruction p.2 addressableLimit,
          some ⟨file, placed.number, 1⟩⟩) layout := by
  rw [unaddressable, beyond]
  cases layout.cards[addressableLimit]? <;> rfl

/-- The warnings on the size look for what is beyond the recommended sizes. -/
lemma sizeWarnings_eq (file : String) (layout : Layout) :
    sizeWarnings file layout =
      beyond recommendedCards
        (fun c => ⟨.tooManyCards layout.cards.length, ⟨file, c.definedAt, 1⟩⟩)
        (fun p placed => ⟨.cardTooLong p.2 p.1.instructions.length, ⟨file, placed.number, 1⟩⟩)
        layout := by
  rw [sizeWarnings, beyond]
  cases layout.cards[recommendedCards]? <;> rfl

variable {lines : List NumberedLine} {layout : Layout} (hlayout : Layout.ofLines lines = .ok layout)
include hlayout

/-- A card is opened by a line of the source. -/
lemma exists_line_of_card {c : CardLayout} (hc : c ∈ layout.cards) :
    ∃ l ∈ lines, l.number = c.definedAt := by
  obtain ⟨n, hn⟩ := List.mem_iff_getElem?.1 hc
  obtain ⟨s, hs, hlay⟩ := Layout.exists_section hlayout hn
  have hheading := List.mem_map_of_mem (f := fun s : Section => (s.definedAt, s.name))
    (List.mem_of_getElem? hs)
  rw [(Layout.heading_of_lay hlay).2]
  rw [Section.map_heading_ofLines, List.mem_append, Option.mem_toList, Option.map_eq_some_iff,
    List.mem_filterMap] at hheading
  rcases hheading with ⟨l, hfind, he⟩ | ⟨l, hl, he⟩
  · have hl : l ∈ lines := (List.takeWhile_prefix _).mem (List.mem_of_find?_eq_some hfind)
    exact ⟨l, hl, (Prod.mk.inj he).1⟩
  · exact ⟨l, hl, congrArg NumberedLine.number (NumberedLine.heading?_eq_some_iff.1 he)⟩

/-- An instruction comes from a line of the source. -/
lemma exists_line_of_placed {c : CardLayout} (hc : c ∈ layout.cards) {placed : PlacedInstruction}
    (hplaced : placed ∈ c.instructions) : ∃ l ∈ lines, l.number = placed.number := by
  have hmem : placed ∈ layout.cards.flatMap (·.instructions) := List.mem_flatMap.2 ⟨c, hc, hplaced⟩
  rw [(Layout.partitions_of_ofLines hlayout).instructions, List.mem_filterMap] at hmem
  obtain ⟨l, hl, he⟩ := hmem
  obtain ⟨label, rfl⟩ := NumberedLine.placed?_eq_some_iff.1 he
  exact ⟨_, hl, rfl⟩

/-- All that is told of a layout that is too large has the number of a line. -/
lemma exists_line_of_beyond {β : Type} {limit : Nat} {card : CardLayout → β}
    {instruction : CardLayout × Nat → PlacedInstruction → β} {P : β → Nat → Prop}
    (hcard : ∀ c, P (card c) c.definedAt)
    (hinstruction : ∀ p placed, P (instruction p placed) placed.number) {x : β}
    (hx : x ∈ beyond limit card instruction layout) : ∃ l ∈ lines, P x l.number := by
  rcases mem_beyond_iff.1 hx with ⟨c, hc, rfl⟩ | ⟨n, c, placed, hc, hplaced, rfl⟩
  · obtain ⟨l, hl, hnumber⟩ := exists_line_of_card hlayout (List.mem_of_getElem? hc)
    exact ⟨l, hl, hnumber ▸ hcard c⟩
  · obtain ⟨l, hl, hnumber⟩ := exists_line_of_placed hlayout (List.mem_of_getElem? hc)
      (List.mem_of_getElem? hplaced)
    exact ⟨l, hl, hnumber ▸ hinstruction (c, n) placed⟩

end layouts

section places

variable {path content : String}

/-- Whatever the stage that fails, its errors are told of at their places. -/
lemma Stops.inPlace {errors : List Error} (h : Stops path content errors) {e : Error}
    (he : e ∈ errors) : e.InPlace path content := by
  cases h with
  | unread h =>
    obtain ⟨k, unread⟩ := (oneEach_unread h).exists_of_mem he
    exact unread.inPlace
  | repeated hread hlayout herrors =>
    rw [herrors, List.mem_singleton] at he
    exact he ▸ inPlace_of_tellsFirstRepeat hread (tellsFirstRepeat_of_ofLines hlayout)
  | beyond hread hlayout _ herrors =>
    rw [herrors, unaddressable_eq] at he
    obtain ⟨l, hl, hlocation, hfault⟩ := exists_line_of_beyond hlayout
      (P := fun e number => e.location = some ⟨path, number, 1⟩ ∧ ∀ fault, e.fault ≠ .symbol fault)
      (fun c => ⟨rfl, nofun⟩) (fun p placed => ⟨rfl, nofun⟩) he
    exact ⟨_, hlocation, hread.pointsInto hl, fun fault h => absurd h (hfault fault)⟩
  | unresolved hread hlayout hreach h =>
    obtain ⟨k, unresolved⟩ := (oneEach_unresolved hlayout hreach h).exists_of_mem he
    exact unresolved.inPlace hread

/-- The warning on a value is for literals that a register cannot hold. -/
lemma valueWarning?_eq_some_iff {e : Entry} {w : Warning} :
    valueWarning? e = some w ↔
      ∃ v, e.instruction.argument = .literal v ∧ ¬(-999 ≤ v.toInt ∧ v.toInt ≤ 999) ∧
        w = ⟨.literalSaturates v, e.location⟩ := by
  rw [valueWarning?]
  cases e.instruction.argument with
  | register r => simp
  | literal v =>
    dsimp only
    split
    · next hsmall =>
      constructor
      · rintro ⟨⟩
      · rintro ⟨_, ⟨⟩, hlarge, -⟩
        exact absurd hsmall hlarge
    · next hlarge =>
      constructor
      · rintro ⟨⟩
        exact ⟨v, rfl, hlarge, rfl⟩
      · rintro ⟨_, ⟨⟩, -, rfl⟩
        rfl

/-- The warning on a value is given at the operand. -/
lemma location_of_valueWarning? {e : Entry} {w : Warning} (h : valueWarning? e = some w) :
    w.location = e.location := by
  obtain ⟨v, -, -, rfl⟩ := valueWarning?_eq_some_iff.1 h
  rfl

/-- An entry of the listing is at its place. -/
lemma inPlace_of_lists {lines : List NumberedLine} (hread : Reads path content lines) {k : Nat}
    {e : Entry} (h : Lists path lines k e) : e.InPlace path content := by
  obtain ⟨number, label, written, argument, hl, rfl⟩ := h
  obtain ⟨hplace, word, hword, -⟩ := hread.showsOperand (List.mem_of_getElem? hl)
  obtain ⟨text, hsource, hparse⟩ := hread.exists_mem (List.mem_of_getElem? hl)
  have htext := (Source.getElem?_lines_of_mem hsource).2
  exact ⟨hplace, ⟨word, hword⟩, text, label, written.operand, htext, hparse⟩

/-- Warnings and entries of a source that assembles are at their places. -/
lemma inPlace_of_ok {a : Assembly} (h : ofSource path content = .ok a) :
    (∀ w ∈ a.warnings, w.InPlace path content) ∧ ∀ e ∈ a.entries, e.InPlace path content := by
  obtain ⟨lines, layout, cards, hread, hlayout, hbeyond, hcards, rfl⟩ := ofLines_eq_ok_iff.1 h
  have hlists := oneEach_lists hlayout (unaddressable_eq_nil_iff.1 hbeyond) hcards
  have hentries : ∀ e ∈ cards.flatten, e.InPlace path content := by
    intro e he
    obtain ⟨k, lists⟩ := hlists.exists_of_mem he
    exact inPlace_of_lists hread lists
  refine ⟨fun w hw => ?_, hentries⟩
  rcases List.mem_append.1 hw with hw | hw
  · rw [sizeWarnings_eq] at hw
    obtain ⟨l, hl, hlocation, hconcern⟩ := exists_line_of_beyond hlayout
      (P := fun w number => w.location = ⟨path, number, 1⟩ ∧ ∀ v, w.concern ≠ .literalSaturates v)
      (fun c => ⟨rfl, nofun⟩) (fun p placed => ⟨rfl, nofun⟩) hw
    exact ⟨hlocation ▸ Reads.pointsInto hread hl, fun h => absurd h (hconcern _)⟩
  · obtain ⟨e, he, hvalue⟩ := List.mem_filterMap.1 hw
    have hlocation := location_of_valueWarning? hvalue
    exact ⟨hlocation ▸ (hentries e he).pointsInto, fun _ => hlocation ▸ (hentries e he).operand⟩

/-- Whatever an assembler says of a source, it says with a place in the source, and whatever it says of
a name or of a value is to be seen there. -/
theorem diagnostics_point_into_source (path content : String) :
    (∀ errors, ofSource path content = .error errors → ∀ e ∈ errors, e.InPlace path content) ∧
    ∀ a, ofSource path content = .ok a →
      (∀ w ∈ a.warnings, w.InPlace path content) ∧ ∀ e ∈ a.entries, e.InPlace path content :=
  ⟨fun _ h _ => (stops_of_ofSource h).inPlace, fun _ => inPlace_of_ok⟩

end places

/-- A jump with blanks of two and of three bytes before its operand. -/
def spacedJump : String := "# Größe\n```cards\n\u00a0JMP,\u2003gone ; fort\n```\n"

/-- Two cards of one name. -/
def twoDocks : String := ".card dock\nLDA 1\n\n\t.CARD,dock; später\n"

/-- A value that no register can hold. -/
def largeLoad : String := "\u00a0LDA\t1500"

/-- What is told of `spacedJump`, `twoDocks` and `largeLoad` is told with a place in them. -/
theorem spacedJump_twoDocks_largeLoad_in_place :
    (∃ e, ofSource "jump.md" spacedJump = .error [e] ∧ e.InPlace "jump.md" spacedJump ∧
      e = ⟨.symbol (.undefinedLabel "gone"), some ⟨"jump.md", 3, 10⟩⟩) ∧
    (∃ e, ofSource "docks.cards" twoDocks = .error [e] ∧ e.InPlace "docks.cards" twoDocks ∧
      e = ⟨.symbol (.duplicateCard "dock" 1), some ⟨"docks.cards", 4, 1⟩⟩) ∧
    ∃ a, ofSource "load.cards" largeLoad = .ok a ∧
      (∀ w ∈ a.warnings, w.InPlace "load.cards" largeLoad) ∧
      (∀ e ∈ a.entries, e.InPlace "load.cards" largeLoad) ∧
      a.warnings = [⟨.literalSaturates 1500, ⟨"load.cards", 1, 7⟩⟩] := by
  have hjump : ofSource "jump.md" spacedJump =
      .error [⟨.symbol (.undefinedLabel "gone"), some ⟨"jump.md", 3, 10⟩⟩] := by decide +kernel
  have hdocks : ofSource "docks.cards" twoDocks =
      .error [⟨.symbol (.duplicateCard "dock" 1), some ⟨"docks.cards", 4, 1⟩⟩] := by decide +kernel
  have hload : ofSource "load.cards" largeLoad = .ok
      { program := ⟨[[⟨.lda, .literal 1500, none⟩]]⟩
        cards := [⟨none, 1⟩]
        warnings := [⟨.literalSaturates 1500, ⟨"load.cards", 1, 7⟩⟩]
        entries := [⟨0, 0, ⟨.lda, .literal 1500, none⟩, ⟨"load.cards", 1, 7⟩⟩] } := by decide +kernel
  obtain ⟨hwarnings, hentries⟩ := (diagnostics_point_into_source _ _).2 _ hload
  exact ⟨⟨_, hjump, (diagnostics_point_into_source _ _).1 _ hjump _ (by simp), rfl⟩,
    ⟨_, hdocks, (diagnostics_point_into_source _ _).1 _ hdocks _ (by simp), rfl⟩,
    _, hload, hwarnings, hentries, rfl⟩

end Assembly

end CardMachine
