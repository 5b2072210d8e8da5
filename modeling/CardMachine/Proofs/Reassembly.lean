import CardMachine.Proofs.Assembly
import CardMachine.Proofs.Line
import CardMachine.Proofs.Place

/-!
# A program is assembled from its own text

Cards are written with a heading for each card and a line for each instruction (`sourceLines`). The
text is cut into the same lines again (`IsText.lines_eq`), every line is read back
(`parse_sourceLines`), the sections of the source are the cards (`Section.split_of_map_line`), and as
nothing in it has a name, layout and resolution keep everything as it is
(`Layout.exists_of_map_line`, `Assembly.resolveAll_written`).
-/

namespace CardMachine

/-- Where elements with the same key come out right one by one, lists with the same keys do. -/
lemma exists_map_eq {α β γ δ κ : Type} {f : α → β} {g : δ → β} {r : δ → γ} {k : α → κ} {n : γ → κ}
    (step : ∀ x y, k x = n y → ∃ z, f x = g z ∧ r z = y) {xs : List α} {ys : List γ}
    (h : xs.map k = ys.map n) : ∃ zs : List δ, xs.map f = zs.map g ∧ zs.map r = ys := by
  induction ys generalizing xs with
  | nil =>
    obtain rfl : xs = [] := by simpa using h
    exact ⟨[], rfl, rfl⟩
  | cons y ys ih =>
    rw [List.map_cons] at h
    obtain ⟨x, xs, rfl, hx, hxs⟩ := List.map_eq_cons_iff.1 h
    obtain ⟨z, hz, hy⟩ := step x y hx
    obtain ⟨zs, hzs, hys⟩ := ih hxs
    exact ⟨z :: zs, by rw [List.map_cons, List.map_cons, hz, hzs], by rw [List.map_cons, hy, hys]⟩

/-- Where indices are not looked at, they may be left out. -/
lemma map_zipIdx_fst {α κ : Type} (k : α → κ) (l : List α) :
    (l.zipIdx.map fun x => k x.1) = l.map k := by
  conv_rhs => rw [← List.zipIdx_map_fst 0 l, List.map_map]
  rfl

namespace Text

/-- A part without a separator is not cut. -/
lemma cutAt_append {sep : Char} {part : List Char} (h : sep ∉ part) (rest : List Char) :
    cutAt sep (part ++ rest) = (part ++ (cutAt sep rest).1, (cutAt sep rest).2) := by
  induction part with
  | nil => rfl
  | cons c part ih =>
    obtain ⟨hc, hpart⟩ := List.ne_and_not_mem_of_not_mem_cons h
    have hcut := ih hpart
    rw [cutAt] at hcut ⊢
    rw [List.cons_append, List.foldr_cons, hcut]
    exact if_neg hc.symm

/-- A text is cut at a separator it starts with. -/
lemma cutAt_cons_self (sep : Char) (rest : List Char) :
    cutAt sep (sep :: rest) = ([], (cutAt sep rest).1 :: (cutAt sep rest).2) :=
  if_pos rfl

/-- Parts that all but the last end with a separator are cut where they end. -/
lemma cutAt_flatMap {sep : Char} {parts : List (List Char)} {last : List Char}
    (h : ∀ part ∈ parts, sep ∉ part) (hlast : sep ∉ last) :
    (cutAt sep (parts.flatMap (· ++ [sep]) ++ last)).1 ::
      (cutAt sep (parts.flatMap (· ++ [sep]) ++ last)).2 = parts ++ [last] := by
  induction parts with
  | nil =>
    have hcut : cutAt sep (last ++ []) = (last ++ [], []) := cutAt_append hlast []
    rw [List.append_nil] at hcut
    rw [List.flatMap_nil, List.nil_append, hcut]
    rfl
  | cons part parts ih =>
    rw [List.flatMap_cons, List.append_assoc, List.append_assoc, List.singleton_append,
      cutAt_append (h part List.mem_cons_self), cutAt_cons_self, List.append_nil, List.cons_append,
      ← ih fun x hx => h x (List.mem_cons_of_mem part hx)]

/-- The parts of a text but the last are lines, and the last is one if it is not empty. -/
lemma endedLines_eq {first last : List Char} {rest init : List (List Char)}
    (h : first :: rest = init ++ [last]) :
    endedLines first rest = init.map dropReturn ++ if last.isEmpty then [] else [last] := by
  cases rest with
  | nil =>
    obtain ⟨rfl, hlast⟩ := List.append_inj' (show [] ++ [first] = init ++ [last] from h) rfl
    cases hlast
    rfl
  | cons second rest =>
    have hinit : (first :: second :: rest).dropLast = init := by rw [h, List.dropLast_concat]
    have hlast : (second :: rest).getLast? = some last := by
      simpa using congrArg List.getLast? h
    rw [endedLines, List.getLastD_eq_getLast?, hinit, hlast]
    rfl

/-- A text has the lines it was made of, whether the last one is ended or not. -/
lemma lines_eq {text : String} {init : List (List Char)} {last : List Char}
    (htext : text.toList = init.flatMap (· ++ ['\n']) ++ last)
    (hinit : ∀ line ∈ init, '\n' ∉ line ∧ '\r' ∉ line) (hlast : '\n' ∉ last) :
    lines text = (init ++ if last.isEmpty then [] else [last]).map String.ofList := by
  have hdrop : init.map dropReturn = init.map id := by
    refine List.map_congr_left fun line hline => if_neg fun h => ?_
    exact (hinit line hline).2 (List.mem_of_getLast? h)
  rw [lines, htext]
  dsimp only
  rw [endedLines_eq (cutAt_flatMap (fun line hline => (hinit line hline).1) hlast), hdrop,
    List.map_id]

end Text

/-- Lines of text one under the other, the last one ended or not. -/
def IsText (lines : List String) (text : String) : Prop :=
  text = String.join (lines.map (· ++ "\n")) ∨ text = "\n".intercalate lines

/-- Joined lines end with a line feed, the last one apart. -/
lemma toList_intercalate_newline (init : List String) (last : String) :
    ("\n".intercalate (init ++ [last])).toList =
      (init.map String.toList).flatMap (· ++ ['\n']) ++ last.toList := by
  rw [String.toList_intercalate, List.map_append]
  induction init with
  | nil => simp
  | cons line init ih =>
    rw [List.map_cons, List.cons_append, List.flatMap_cons, List.append_assoc, ← ih]
    cases init <;> simp

/-- A text that is made of lines is cut into these lines. -/
lemma IsText.lines_eq {lines : List String} {text : String} (h : IsText lines text)
    (hlines : ∀ line ∈ lines, line ≠ "" ∧ '\n' ∉ line.toList ∧ '\r' ∉ line.toList) :
    Text.lines text = lines := by
  have hinit {init : List String} (h : ∀ line ∈ init, line ∈ lines) :
      ∀ line ∈ init.map String.toList, '\n' ∉ line ∧ '\r' ∉ line := by
    intro line hline
    obtain ⟨line, hmem, rfl⟩ := List.mem_map.1 hline
    exact (hlines line (h line hmem)).2
  have hback (lines : List String) : (lines.map String.toList).map String.ofList = lines := by
    simp [Function.comp_def]
  rcases h with rfl | rfl
  · have htext : (String.join (lines.map (· ++ "\n"))).toList =
        (lines.map String.toList).flatMap (· ++ ['\n']) ++ [] := by
      simp [String.toList_join, List.flatMap_map]
    rw [Text.lines_eq htext (hinit fun _ => id) List.not_mem_nil]
    exact (congrArg _ (List.append_nil _)).trans (hback lines)
  · obtain rfl | ⟨init, last, rfl⟩ := List.eq_nil_or_concat lines
    · rfl
    · obtain ⟨hne, hnewline, -⟩ := hlines last (by simp)
      have hlast : last.toList.isEmpty = false := by simpa using hne
      rw [List.concat_eq_append, Text.lines_eq (toList_intercalate_newline init last)
        (hinit fun line hline => by simp [hline]) hnewline, hlast]
      simp [Function.comp_def]

/-- The lines that cards are written with. -/
def sourceLines (cards : List Card) : List String :=
  cards.flatMap fun card => ".card" :: card.map Instruction.text

/-- The lines that cards are written with, as they are read. -/
def cardLines (cards : List Card) : List Line :=
  cards.flatMap fun card => .card none :: card.map Instruction.line

/-- The text of cards is read back line by line. -/
lemma parse_sourceLines (cards : List Card) :
    (sourceLines cards).map Line.parse = (cardLines cards).map .ok := by
  induction cards with
  | nil => rfl
  | cons card cards ih =>
    have hcard : (card.map Instruction.text).map Line.parse = (card.map Instruction.line).map .ok := by
      rw [List.map_map, List.map_map]
      exact List.map_congr_left fun i _ => Line.parse_text i
    rw [sourceLines, cardLines, List.flatMap_cons, List.flatMap_cons, List.map_append,
      List.map_append, List.map_cons, List.map_cons, Line.parse_heading, hcard, ← sourceLines, ih]
    rfl

/-- The lines of cards are not empty and have no line ending in them. -/
lemma mem_sourceLines {cards : List Card} {line : String} (h : line ∈ sourceLines cards) :
    line ≠ "" ∧ '\n' ∉ line.toList ∧ '\r' ∉ line.toList := by
  obtain ⟨card, -, hline⟩ := List.mem_flatMap.1 h
  rcases List.mem_cons.1 hline with rfl | hline
  · decide
  · obtain ⟨i, -, rfl⟩ := List.mem_map.1 hline
    have hplain {c : Char} (hc : c ∈ i.text.toList) (hspace : c ≠ ' ') : Token.isPart c = true := by
      rcases Instruction.mem_text hc with rfl | ⟨word, hword, hmem⟩
      · exact absurd rfl hspace
      · exact hword.isPart hmem
    refine ⟨?_, ?_, ?_⟩
    · intro h
      have := congrArg String.toList h
      rw [Instruction.toList_text] at this
      cases hf : i.flag <;> simp [hf] at this
    · intro h
      cases hplain h (by decide)
    · intro h
      cases hplain h (by decide)

namespace Section

/-- Lines without a heading go to what stands before the first one. -/
lemma split_append {body : List NumberedLine} (h : ∀ l ∈ body, l.opensCard = false)
    (rest : List NumberedLine) : split (body ++ rest) = (body ++ (split rest).1, (split rest).2) := by
  induction body with
  | nil => rfl
  | cons l body ih =>
    rw [List.cons_append, split_cons_of_not_opensCard (h l List.mem_cons_self),
      ih fun x hx => h x (List.mem_cons_of_mem l hx)]
    rfl

/-- The sections of written cards are the cards, and none of them has a name. -/
lemma split_of_map_line {lines : List NumberedLine} {cards : List Card}
    (h : lines.map (·.line) = cardLines cards) :
    (split lines).1 = [] ∧ (split lines).2.map (fun s => (s.name, s.body.map (·.line))) =
      cards.map fun card => (none, card.map Instruction.line) := by
  induction cards generalizing lines with
  | nil =>
    obtain rfl : lines = [] := by simpa [cardLines] using h
    exact ⟨rfl, rfl⟩
  | cons card cards ih =>
    rw [cardLines, List.flatMap_cons, List.cons_append] at h
    obtain ⟨heading, rest, rfl, hheading, hrest⟩ := List.map_eq_cons_iff.1 h
    obtain ⟨body, rest, rfl, hbody, hrest⟩ := List.map_eq_append_iff.1 hrest
    obtain ⟨hfirst, hsections⟩ := ih hrest
    have hplain : ∀ l ∈ body, l.opensCard = false := by
      intro l hl
      have hline : l.line ∈ card.map Instruction.line := hbody ▸ List.mem_map_of_mem hl
      obtain ⟨i, -, hi⟩ := List.mem_map.1 hline
      rw [NumberedLine.opensCard, ← hi]
      rfl
    have hcard : heading.heading? = some (heading.number, none) := by
      rw [NumberedLine.heading?, hheading]
    rw [split_cons_of_heading? hcard, split_append hplain, hfirst, List.append_nil]
    refine ⟨rfl, ?_⟩
    rw [List.map_cons, List.map_cons, hsections, hbody]

end Section

/-- The instruction on a line, as it is written. -/
def Line.written? : Line → Option WrittenInstruction
  | .instruction _ written => some written
  | _ => none

/-- The instructions of a section are those of its lines. -/
lemma Section.map_written_instructions (s : Section) :
    s.instructions.map (·.written) = (s.body.map (·.line)).filterMap Line.written? := by
  rw [Section.instructions, List.map_filterMap, List.filterMap_map]
  refine List.filterMap_congr fun l _ => ?_
  dsimp only [Function.comp_def]
  cases l.line <;> rfl

/-- The lines of a card are its instructions. -/
lemma filterMap_written?_line (card : Card) :
    (card.map Instruction.line).filterMap Line.written? = card.map Instruction.written := by
  rw [List.filterMap_map, ← List.filterMap_eq_map]
  rfl

namespace Layout

/-- A section without labels is laid out as it is. -/
lemma lay_of_map_line {s : Section} {card : Card} (h : s.body.map (·.line) = card.map Instruction.line) :
    lay s = .ok ⟨s.name, s.definedAt, [], s.instructions⟩ := by
  have hlabels : collectLabels [] 0 s.body = .ok [] := by
    rw [collectLabels_eq]
    refine defineAll_of_unnamed fun entry hentry => ?_
    obtain ⟨j, hj⟩ := List.mem_iff_getElem?.1 hentry
    rw [getElem?_labelEntries] at hj
    obtain ⟨l, hl, rfl⟩ := Option.map_eq_some_iff.1 hj
    have hline : l.line ∈ card.map Instruction.line :=
      h ▸ List.mem_map_of_mem (List.mem_of_getElem? hl)
    obtain ⟨i, -, hi⟩ := List.mem_map.1 hline
    rw [← hi]
    rfl
  rw [lay, hlabels]
  rfl

/-- The layout of written cards. -/
lemma exists_of_map_line {lines : List NumberedLine} {cards : List Card}
    (h : lines.map (·.line) = cardLines cards) :
    ∃ layout, ofLines lines = .ok layout ∧
      layout.cards.map (fun c => c.instructions.map (·.written)) =
        cards.map (·.map Instruction.written) := by
  obtain ⟨hfirst, hsections⟩ := Section.split_of_map_line h
  have hofLines : Section.ofLines lines = (Section.split lines).2 := by
    refine Section.ofLines_of_not_startsUnopened ?_
    rw [startsUnopened, ← Section.fst_split, hfirst]
    rfl
  have hsection {s : Section} (hs : s ∈ (Section.split lines).2) :
      s.name = none ∧ ∃ card : Card, s.body.map (·.line) = card.map Instruction.line := by
    have hmem : (s.name, s.body.map (·.line)) ∈
        cards.map fun card => (none, card.map Instruction.line) :=
      hsections ▸ List.mem_map_of_mem hs
    obtain ⟨card, -, e⟩ := List.mem_map.1 hmem
    obtain ⟨hname, hbody⟩ := Prod.mk.inj e
    exact ⟨hname.symm, card, hbody.symm⟩
  refine ⟨⟨(Section.split lines).2.map fun s => ⟨s.name, s.definedAt, [], s.instructions⟩, []⟩,
    ofLines_eq_ok_iff.2 ⟨?_, ?_⟩, ?_⟩
  · rw [hofLines, List.map_map]
    refine List.map_congr_left fun s hs => ?_
    obtain ⟨-, card, hbody⟩ := hsection hs
    exact lay_of_map_line hbody
  · refine defineAll_of_unnamed fun entry hentry => ?_
    obtain ⟨j, hj⟩ := List.mem_iff_getElem?.1 hentry
    rw [getElem?_nameEntries, hofLines] at hj
    obtain ⟨s, hs, rfl⟩ := Option.map_eq_some_iff.1 hj
    exact (hsection (List.mem_of_getElem? hs)).1
  · have hwritten := congrArg (List.map fun x => x.2.filterMap Line.written?) hsections
    simp only [List.map_map, Function.comp_def, filterMap_written?_line] at hwritten
    simp only [List.map_map, Function.comp_def, Section.map_written_instructions, hwritten]

end Layout

namespace Assembly

/-- An operand that is no name is resolved to itself. -/
lemma resolveEntry_written (file : String) (layout : Layout) (c : CardLayout) (card index : Nat)
    {placed : PlacedInstruction} {i : Instruction} (h : placed.written = i.written) :
    ∃ entry, resolveEntry file layout c card placed index = .ok entry ∧ entry.instruction = i := by
  have hresolve : layout.resolve c index placed = .ok i.argument := by
    rw [Layout.resolve, h, Instruction.written]
    cases i.argument <;> rfl
  rw [resolveEntry, hresolve, h]
  exact ⟨_, rfl, rfl⟩

/-- The instructions of a card are resolved to themselves. -/
lemma resolveCard_written (file : String) (layout : Layout) {c : CardLayout} (n : Nat) {card : Card}
    (h : c.instructions.map (·.written) = card.map Instruction.written) :
    ∃ entries : List Entry, resolveCard file layout c n = entries.map .ok ∧
      entries.map Entry.instruction = card := by
  refine exists_map_eq (fun x i hx => resolveEntry_written file layout c n x.2 hx) ?_
  rw [← h]
  exact map_zipIdx_fst _ _

/-- The cards of a layout are resolved to themselves. -/
lemma resolveAll_written (file : String) {layout : Layout} {cards : List Card}
    (h : layout.cards.map (fun c => c.instructions.map (·.written)) =
      cards.map (·.map Instruction.written)) :
    ∃ resolved, resolveAll file layout = .ok resolved ∧
      resolved.map (·.map Entry.instruction) = cards := by
  simp only [resolveAll_eq_ok_iff]
  refine exists_map_eq (fun x card hx => resolveCard_written file layout x.2 hx) ?_
  rw [← h]
  exact map_zipIdx_fst (fun c : CardLayout => c.instructions.map (·.written)) layout.cards

/-- Lines that can be read are read. -/
lemma exists_readLine (file : String) {source : List SourceLine} {lines : List Line}
    (h : source.map (fun l => Line.parse l.text) = lines.map .ok) :
    ∃ read : List NumberedLine, source.map (readLine file) = read.map .ok ∧
      read.map (·.line) = lines := by
  refine exists_map_eq (fun l line hline => ⟨⟨l.number, line⟩, ?_, rfl⟩) h
  rw [readLine, hline]

/-- A layout of addressable cards is not too large. -/
lemma unaddressable_of_map_written (file : String) {layout : Layout} {cards : List Card}
    (h : layout.cards.map (fun c => c.instructions.map (·.written)) =
      cards.map (·.map Instruction.written)) (haddressable : Addressable cards) :
    unaddressable file layout = [] := by
  have hlengths := congrArg (List.map List.length) h
  simp only [List.map_map, Function.comp_def, List.length_map] at hlengths
  refine unaddressable_eq_nil_iff.2 ⟨?_, fun c hc => ?_⟩
  · have hcount := congrArg List.length h
    rw [List.length_map, List.length_map] at hcount
    rw [hcount]
    exact haddressable.1
  · have hmem : c.instructions.length ∈ cards.map List.length :=
      hlengths ▸ List.mem_map_of_mem hc
    obtain ⟨card, hcard, e⟩ := List.mem_map.1 hmem
    rw [← e]
    exact haddressable.2 card hcard

/-- The program assembled from the text of its cards has these cards, all of them and as they are, and
the machine stands at its start. -/
theorem ofSource_sourceLines {path : String} (hpath : Source.isLiterate path = false)
    {cards : List Card} (hcards : Addressable cards) {content : String}
    (hcontent : IsText (sourceLines cards) content) :
    ∃ a, ofSource path content = .ok a ∧ a.program.cards = cards ∧
      a.machine = { program := ⟨cards⟩ } := by
  have hparse : (Source.extract path content).map (fun l => Line.parse l.text) =
      (cardLines cards).map .ok := by
    rw [← parse_sourceLines, ← hcontent.lines_eq fun _ => mem_sourceLines, Source.extract, hpath,
      if_neg Bool.false_ne_true, Source.numbered, List.map_map]
    exact map_zipIdx_fst _ _
  obtain ⟨lines, hread, hlines⟩ := exists_readLine path hparse
  obtain ⟨layout, hlayout, hwritten⟩ := Layout.exists_of_map_line hlines
  obtain ⟨resolved, hentries, hprogram⟩ := resolveAll_written path hwritten
  have hbeyond := unaddressable_of_map_written path hwritten hcards
  have e : (ofEntries path layout resolved).program.cards = cards := by
    rw [cards_ofEntries hbeyond hentries, hprogram]
  refine ⟨ofEntries path layout resolved, ?_, e, ?_⟩
  · exact ofLines_eq_ok_iff.2 ⟨lines, layout, resolved, hread, hlayout, hbeyond, hentries, rfl⟩
  · rw [machine, Machine.ofProgram, ← e]

/-- Two cards are empty, and the third has the least value there is. -/
def sparseCards : List Card :=
  [[], [], [⟨.add, .literal (-32768), some .neg⟩, ⟨.jmp, .register .d, none⟩]]

/-- `sparseCards` are assembled from their text, with the last line not ended. -/
theorem ofSource_sparseCards :
    Source.isLiterate "sparse.cards" = false ∧ Addressable sparseCards ∧
      sourceLines sparseCards = [".card", ".card", ".card", "NEG ADD -32768", "JMP D"] ∧
      ∃ a, ofSource "sparse.cards" ("\n".intercalate (sourceLines sparseCards)) = .ok a ∧
        a.program.cards = sparseCards ∧ a.machine = { program := ⟨sparseCards⟩ } := by
  have hpath : Source.isLiterate "sparse.cards" = false := by decide +kernel
  have hcards : Addressable sparseCards := by decide
  refine ⟨hpath, hcards, by decide +kernel, ?_⟩
  exact ofSource_sourceLines hpath hcards (.inr rfl)

end Assembly

end CardMachine
