import CardMachine.Proofs.Order

/-!
# A layout grows line by line

`Layout.ofLines` cuts a source into sections and lays them out one after the other. The same layout comes
of taking the lines one at a time (`Layout.addLine`): a heading opens a card, any other line goes to the
card that was opened last, and the first line that belongs to no card opens one. `ofLines_eq_foldlM`
says that the two agree, errors included. So a layout can be followed from the lines so far to one line
more (`ofLines_concat`), and a source that cannot be laid out fails at one line (`exists_of_ofLines_error`).
-/

namespace CardMachine

namespace CardLayout

/-- A card with nothing on it. -/
def opened (name : Option String) (number : Nat) : CardLayout := ⟨name, number, [], []⟩

/-- Puts lines at the end of a card: their labels and their instructions. -/
def addLines (c : CardLayout) (lines : List NumberedLine) : Except SymbolError CardLayout :=
  (Layout.collectLabels c.labels c.instructions.length lines).map fun labels =>
    { c with labels, instructions := c.instructions ++ lines.filterMap (·.placed?) }

lemma addLines_nil (c : CardLayout) : c.addLines [] = .ok c := by
  rw [addLines, Layout.collectLabels]
  exact congrArg Except.ok (by rw [List.filterMap_nil, List.append_nil])

/-- A blank line leaves a card as it is. -/
lemma addLines_blank (c : CardLayout) {l : NumberedLine} (h : l.line = .blank) :
    c.addLines [l] = .ok c := by
  obtain ⟨number, line⟩ := l
  cases h
  exact c.addLines_nil

/-- Lines are put on a card one after the other. -/
lemma addLines_cons (c : CardLayout) (l : NumberedLine) (rest : List NumberedLine) :
    c.addLines (l :: rest) = (c.addLines [l]).bind (·.addLines rest) := by
  have hlength : (c.instructions ++ [l].filterMap (·.placed?)).length =
      c.instructions.length + l.line.weight := by
    obtain ⟨number, line⟩ := l
    cases line <;> simp [NumberedLine.placed?, Line.weight]
  have hinstructions : (l :: rest).filterMap (·.placed?) =
      [l].filterMap (·.placed?) ++ rest.filterMap (·.placed?) := by
    rw [← List.filterMap_append]
    rfl
  rw [addLines, addLines, Layout.collectLabels, Layout.collectLabels, hinstructions,
    ← List.append_assoc]
  cases l.line.label? with
  | none =>
    rw [← hlength]
    rfl
  | some name =>
    dsimp only
    cases Layout.define c.labels name ⟨c.instructions.length, l.number⟩ .duplicateLabel with
    | error e => rfl
    | ok labels =>
      rw [← hlength]
      rfl

end CardLayout

namespace Layout

/-- Puts a line that opens no card on the card that was opened last. If there is none, it opens one. -/
def addToLast (layout : Layout) (l : NumberedLine) : Except SymbolError Layout :=
  let last := layout.cards.getLast?.getD (.opened none l.number)
  (last.addLines [l]).map fun c => ⟨layout.cards.dropLast ++ [c], layout.cardNames⟩

/-- Adds a line to a layout. -/
def addLine (layout : Layout) (l : NumberedLine) : Except SymbolError Layout :=
  match l.line with
  | .blank => .ok layout
  | .card name =>
    (defineCard layout.cardNames layout.cards.length ⟨name, l.number, []⟩).map fun cardNames =>
      ⟨layout.cards ++ [.opened name l.number], cardNames⟩
  | _ => layout.addToLast l

/-- A blank line leaves the layout as it is. -/
lemma addLine_of_blank {l : NumberedLine} (h : l.line = .blank) (layout : Layout) :
    layout.addLine l = .ok layout := by
  rw [addLine, h]

/-- A heading opens a card and defines its name. -/
lemma addLine_of_heading? {l : NumberedLine} {number : Nat} {name : Option String}
    (h : l.heading? = some (number, name)) (layout : Layout) :
    layout.addLine l =
      (defineCard layout.cardNames layout.cards.length ⟨name, number, []⟩).map fun cardNames =>
        ⟨layout.cards ++ [.opened name number], cardNames⟩ := by
  rw [NumberedLine.heading?_eq_some_iff.1 h]
  rfl

/-- Any other line is put on the last card. -/
lemma addLine_of_plain {l : NumberedLine} (hcard : l.opensCard = false) (hblank : l.line ≠ .blank)
    (layout : Layout) : layout.addLine l = layout.addToLast l := by
  obtain ⟨number, line⟩ := l
  cases line with
  | blank => exact absurd rfl hblank
  | card name => cases hcard
  | label name => rfl
  | instruction label written => rfl

/-- Only the last card takes the line. -/
lemma addToLast_concat (done : List CardLayout) (c : CardLayout) (names : SymbolTable)
    (l : NumberedLine) :
    addToLast ⟨done ++ [c], names⟩ l = (c.addLines [l]).map fun c => ⟨done ++ [c], names⟩ := by
  rw [addToLast, List.getLast?_concat, List.dropLast_concat]
  rfl

/-- A line that opens no card goes to the open card, blank or not. -/
lemma addLine_concat {l : NumberedLine} (hcard : l.opensCard = false) (done : List CardLayout)
    (c : CardLayout) (names : SymbolTable) :
    addLine ⟨done ++ [c], names⟩ l = (c.addLines [l]).map fun c => ⟨done ++ [c], names⟩ := by
  by_cases hblank : l.line = .blank
  · rw [addLine_of_blank hblank, c.addLines_blank hblank]
    rfl
  · rw [addLine_of_plain hcard hblank, addToLast_concat]

/-- A section has its name defined, its lines put on a card, and then come the others. -/
lemma layCards_cons (done : List CardLayout) (index : Nat) (names : SymbolTable) (s : Section)
    (rest : List Section) :
    layCards done index names (s :: rest) =
      (defineCard names index s).bind fun names =>
        ((CardLayout.opened s.name s.definedAt).addLines s.body).bind fun c =>
          layCards (c :: done) (index + 1) names rest := by
  rw [layCards]
  cases defineCard names index s with
  | error e => rfl
  | ok names =>
    dsimp only [Except.bind]
    rw [CardLayout.addLines]
    change _ = Except.bind (Except.map _ (collectLabels [] 0 s.body)) _
    cases collectLabels [] 0 s.body <;> rfl

/-- With a card open, the lines go to it up to the next heading, and from there on card by card. -/
lemma foldlM_addLine_concat (lines : List NumberedLine) (done : List CardLayout) (c : CardLayout)
    (names : SymbolTable) :
    lines.foldlM addLine ⟨done ++ [c], names⟩ =
      (c.addLines (Section.split lines).1).bind fun c =>
        layCards (c :: done.reverse) (done.length + 1) names (Section.split lines).2 := by
  induction lines generalizing done c names with
  | nil =>
    rw [show Section.split [] = ([], []) from rfl, CardLayout.addLines_nil]
    change Except.ok _ = Except.ok _
    rw [List.reverse_cons, List.reverse_reverse]
  | cons l rest ih =>
    rw [List.foldlM_cons]
    cases hl : l.heading? with
    | none =>
      have hcard := NumberedLine.opensCard_of_heading?_eq_none hl
      rw [addLine_concat hcard, Section.split_cons_of_not_opensCard hcard]
      dsimp only
      rw [c.addLines_cons l (Section.split rest).1]
      cases c.addLines [l] with
      | error e => rfl
      | ok c => exact ih done c names
    | some heading =>
      rw [addLine_of_heading? hl, Section.split_cons_of_heading? hl, CardLayout.addLines_nil]
      change _ = layCards _ _ _ _
      have hlength : (done ++ [c]).length = done.length + 1 := List.length_append
      rw [layCards_cons, hlength]
      cases heading with
      | mk number name =>
      change Except.bind (Except.map _ (defineCard names (done.length + 1) ⟨name, number, []⟩)) _ =
        Except.bind (defineCard names (done.length + 1) ⟨name, number, []⟩) _
      cases defineCard names (done.length + 1) ⟨name, number, []⟩ with
      | error e => rfl
      | ok names =>
        change List.foldlM addLine _ rest = _
        rw [ih (done ++ [c]), List.reverse_concat, hlength]
        rfl

/-- The lines before the first heading make a card of their own, unless they are all blank. -/
lemma ofLines_eq_match (lines : List NumberedLine) :
    ofLines lines = match (Section.split lines).1.find? (·.line ≠ .blank) with
      | none => layCards [] 0 [] (Section.split lines).2
      | some first => ((CardLayout.opened none first.number).addLines (Section.split lines).1).bind
          fun c => layCards [c] 1 [] (Section.split lines).2 := by
  rw [ofLines, Section.ofLines]
  dsimp only
  cases (Section.split lines).1.find? (·.line ≠ .blank) with
  | none => rfl
  | some first => exact layCards_cons ..

/-- A layout is made line by line. -/
lemma ofLines_eq_foldlM (lines : List NumberedLine) : ofLines lines = lines.foldlM addLine {} := by
  induction lines with
  | nil => rfl
  | cons l rest ih =>
    rw [List.foldlM_cons, ofLines_eq_match]
    cases hl : l.heading? with
    | some heading =>
      obtain ⟨number, name⟩ := heading
      rw [addLine_of_heading? hl, Section.split_cons_of_heading? hl]
      change layCards [] 0 [] _ = Except.bind (Except.map _ (defineCard [] 0 ⟨name, number, []⟩)) _
      rw [layCards_cons]
      change Except.bind (defineCard [] 0 ⟨name, number, []⟩) _ = _
      cases defineCard [] 0 ⟨name, number, []⟩ with
      | error e => rfl
      | ok names => exact (foldlM_addLine_concat rest [] (.opened name number) names).symm
    | none =>
      have hcard := NumberedLine.opensCard_of_heading?_eq_none hl
      rw [Section.split_cons_of_not_opensCard hcard]
      dsimp only
      by_cases hblank : l.line = .blank
      · -- nothing is opened yet, and a blank line opens nothing
        rw [addLine_of_blank hblank, List.find?_cons_of_neg (by simpa using hblank)]
        refine Eq.trans ?_ ih
        rw [ofLines_eq_match]
        cases (Section.split rest).1.find? (·.line ≠ .blank) with
        | none => rfl
        | some first =>
          dsimp only
          rw [CardLayout.addLines_cons, CardLayout.addLines_blank _ hblank]
          rfl
      · rw [addLine_of_plain hcard hblank, List.find?_cons_of_pos (by simpa using hblank)]
        dsimp only
        rw [CardLayout.addLines_cons]
        change _ = Except.bind (Except.map _ ((CardLayout.opened none l.number).addLines [l])) _
        cases (CardLayout.opened none l.number).addLines [l] with
        | error e => rfl
        | ok c => exact (foldlM_addLine_concat rest [] c []).symm

/-- A last line is added to the layout of the lines before it. -/
lemma ofLines_concat (front : List NumberedLine) (l : NumberedLine) :
    ofLines (front ++ [l]) = (ofLines front).bind (·.addLine l) := by
  rw [ofLines_eq_foldlM, ofLines_eq_foldlM, List.foldlM_append]
  change Except.bind _ _ = _
  congr 1
  funext layout
  exact List.foldlM_cons.trans (bind_pure _)

/-- Lines that cannot be laid out can be up to a line that cannot be added. -/
lemma exists_of_ofLines_error {lines : List NumberedLine} {e : SymbolError}
    (h : ofLines lines = .error e) :
    ∃ front l back layout, lines = front ++ l :: back ∧ ofLines front = .ok layout ∧
      layout.addLine l = .error e := by
  induction lines using List.reverseRecOn with
  | nil => cases h
  | append_singleton front l ih =>
    rw [ofLines_concat] at h
    cases hfront : ofLines front with
    | error e' =>
      rw [hfront] at h
      cases h
      obtain ⟨front', l', back, layout, rfl, hlayout, he⟩ := ih hfront
      exact ⟨front', l', back ++ [l], layout, List.append_assoc .., hlayout, he⟩
    | ok layout =>
      rw [hfront] at h
      exact ⟨front, l, [], layout, rfl, hfront, h⟩

end Layout

end CardMachine
