import CardMachine.Proofs.LineByLine
import CardMachine.Proofs.Verdict

/-!
# Places decide nothing

A line has a number and an operand a column, and both go into everything that an assembler makes of a
source. They are only passed on. To say so, `bare` moves everything to one place, the first column of
the first line of a file without a name, and each stage of the assembler gives of what was moved what it
gives of the rest, moved (`Layout.addLine_bare`, `Assembly.resolveAll_bare`, `Assembly.ofRead_outline`).
So sources with one outline have one verdict (`Assembly.SameVerdict`): what the lines say counts, and not
where they stand, nor the blank lines between them.
-/

namespace CardMachine

section mapBoth

variable {ε ε' α α' β β' : Type}

/-- Changes a result, good or bad. -/
def mapBoth (f : ε → ε') (g : α → α') : Except ε α → Except ε' α'
  | .error e => .error (f e)
  | .ok a => .ok (g a)

/-- A loop commutes with a change of its states that every step commutes with. -/
lemma foldlM_mapBoth {f : ε → ε'} {g : α → α'} {h : β → β'} {step : α → β → Except ε α}
    {step' : α' → β' → Except ε' α'} (hstep : ∀ a b, step' (g a) (h b) = mapBoth f g (step a b))
    (l : List β) (a : α) : (l.map h).foldlM step' (g a) = mapBoth f g (l.foldlM step a) := by
  induction l generalizing a with
  | nil => rfl
  | cons b rest ih =>
    rw [List.map_cons, List.foldlM_cons, List.foldlM_cons, hstep]
    cases step a b with
    | error e => rfl
    | ok a => exact ih a

end mapBoth

namespace Dict

variable {α β : Type} (f : α → β)

/-- Values can be mapped before or after one is put into a dictionary. -/
lemma insert_map (key : String) (value : α) (entries : List (String × α)) :
    insert key (f value) (entries.map (Prod.map id f)) =
      (insert key value entries).map (Prod.map id f) := by
  induction entries with
  | nil => rfl
  | cons e rest ih =>
    obtain ⟨k, v⟩ := e
    change insert key (f value) ((k, f v) :: rest.map (Prod.map id f)) = _
    rw [insert, insert, ih, apply_ite (List.map _), apply_ite (List.map _)]
    rfl

/-- Values can be mapped before or after one is looked up. -/
lemma lookup_map (key : String) (entries : List (String × α)) :
    (entries.map (Prod.map id f)).lookup key = (entries.lookup key).map f := by
  induction entries with
  | nil => rfl
  | cons e rest ih =>
    obtain ⟨k, v⟩ := e
    change List.lookup key ((k, f v) :: rest.map (Prod.map id f)) = _
    rw [lookup_cons, lookup_cons, ih, apply_ite (Option.map f)]
    rfl

end Dict

/-- An instruction with its operand in the first column. -/
def WrittenInstruction.bare (written : WrittenInstruction) : WrittenInstruction :=
  { written with column := 1 }

/-- A line with its operand in the first column. -/
def Line.bare : Line → Line
  | .instruction name written => .instruction name written.bare
  | line => line

/-- A line moved to the first one, with its operand in the first column. -/
def NumberedLine.bare (l : NumberedLine) : NumberedLine := ⟨1, l.line.bare⟩

/-- A name that is defined on the first line. -/
def Symbol.bare (symbol : Symbol) : Symbol := { symbol with definedAt := 1 }

/-- Names that are all defined on the first line. -/
def SymbolTable.bare (table : SymbolTable) : SymbolTable := table.map (Prod.map id Symbol.bare)

/-- An instruction moved to the first line, with its operand in the first column. -/
def PlacedInstruction.bare (placed : PlacedInstruction) : PlacedInstruction := ⟨placed.written.bare, 1⟩

/-- A card with all its lines moved to the first one. -/
def CardLayout.bare (c : CardLayout) : CardLayout :=
  ⟨c.name, 1, c.labels.bare, c.instructions.map (·.bare)⟩

/-- A layout with all its lines moved to the first one. -/
def Layout.bare (layout : Layout) : Layout :=
  ⟨layout.cards.map (·.bare), layout.cardNames.bare⟩

/-- A fault with another line moved to the first one. -/
def SymbolFault.bare : SymbolFault → SymbolFault
  | .duplicateLabel name _ => .duplicateLabel name 1
  | .duplicateCard name _ => .duplicateCard name 1
  | fault => fault

/-- An error in a name, moved to the start of the first line. -/
def SymbolError.bare (e : SymbolError) : SymbolError := ⟨e.fault.bare, 1, 1⟩

/-- What the lines of a source say, less the blank ones. -/
def outline (lines : List NumberedLine) : List Line :=
  (lines.filter (·.line ≠ .blank)).map (·.line.bare)

/-- A line that is moved keeps its label. -/
lemma NumberedLine.label?_bare (l : NumberedLine) : l.bare.line.label? = l.line.label? := by
  obtain ⟨number, line⟩ := l
  cases line <;> rfl

/-- An instruction that is moved is still one. -/
lemma NumberedLine.placed?_bare (l : NumberedLine) : l.bare.placed? = l.placed?.map (·.bare) := by
  obtain ⟨number, line⟩ := l
  cases line <;> rfl

/-- A line that is moved counts as before. -/
lemma NumberedLine.weight_bare (l : NumberedLine) : l.bare.line.weight = l.line.weight := by
  obtain ⟨number, line⟩ := l
  cases line <;> rfl

/-- A name is found wherever it is defined. -/
lemma SymbolTable.lookup_bare (table : SymbolTable) (name : String) :
    table.bare.lookup name = (table.lookup name).map Symbol.bare :=
  Dict.lookup_map ..

namespace Layout

/-- A name is defined, or told of as a repeat, wherever it stands. -/
lemma define_bare {duplicate : String → Nat → SymbolFault}
    (hduplicate : ∀ name first, (duplicate name first).bare = duplicate name 1) (table : SymbolTable)
    (name : String) (symbol : Symbol) :
    define table.bare name symbol.bare duplicate =
      mapBoth SymbolError.bare SymbolTable.bare (define table name symbol duplicate) := by
  rw [define, define, SymbolTable.lookup_bare]
  cases table.lookup name with
  | none => exact congrArg Except.ok (Dict.insert_map ..)
  | some earlier =>
    change _ = Except.error (SymbolError.mk (duplicate name earlier.definedAt).bare 1 1)
    rw [hduplicate]
    rfl

/-- Labels are collected wherever they stand. -/
lemma collectLabels_bare (table : SymbolTable) (index : Nat) (lines : List NumberedLine) :
    collectLabels table.bare index (lines.map (·.bare)) =
      mapBoth SymbolError.bare SymbolTable.bare (collectLabels table index lines) := by
  induction lines generalizing table index with
  | nil => rfl
  | cons l rest ih =>
    rw [List.map_cons, collectLabels, collectLabels, l.label?_bare, l.weight_bare]
    cases l.line.label? with
    | none => exact ih table _
    | some name =>
      have hdefine : define table.bare name ⟨index, l.bare.number⟩ .duplicateLabel =
          mapBoth SymbolError.bare SymbolTable.bare
            (define table name ⟨index, l.number⟩ .duplicateLabel) :=
        define_bare (fun _ _ => rfl) table name ⟨index, l.number⟩
      dsimp only
      rw [hdefine]
      cases define table name ⟨index, l.number⟩ .duplicateLabel with
      | error e => rfl
      | ok table => exact ih table _

/-- Lines are put on a card wherever they stand. -/
lemma addLines_bare (c : CardLayout) (lines : List NumberedLine) :
    c.bare.addLines (lines.map (·.bare)) =
      mapBoth SymbolError.bare CardLayout.bare (c.addLines lines) := by
  have hlength : c.bare.instructions.length = c.instructions.length := List.length_map _
  have hlabels : collectLabels c.bare.labels c.instructions.length (lines.map (·.bare)) =
      mapBoth SymbolError.bare SymbolTable.bare
        (collectLabels c.labels c.instructions.length lines) := collectLabels_bare ..
  have hplaced : (lines.map (·.bare)).filterMap (·.placed?) =
      (lines.filterMap (·.placed?)).map (·.bare) := by
    rw [List.filterMap_map, List.map_filterMap]
    exact List.filterMap_congr fun l _ => l.placed?_bare
  rw [CardLayout.addLines, CardLayout.addLines, hlength, hlabels, hplaced]
  cases collectLabels c.labels c.instructions.length lines with
  | error e => rfl
  | ok labels =>
    refine congrArg Except.ok ?_
    rw [CardLayout.bare, CardLayout.bare, List.map_append]

/-- A line is put on the last card wherever it stands. -/
lemma addToLast_bare (layout : Layout) (l : NumberedLine) :
    layout.bare.addToLast l.bare = mapBoth SymbolError.bare bare (layout.addToLast l) := by
  have hlast : layout.bare.cards.getLast?.getD (.opened none l.bare.number) =
      (layout.cards.getLast?.getD (.opened none l.number)).bare := by
    rw [bare, List.getLast?_map]
    cases layout.cards.getLast? <;> rfl
  have hadd := addLines_bare (layout.cards.getLast?.getD (.opened none l.number)) [l]
  rw [addToLast, addToLast, hlast]
  change Except.map _ (CardLayout.addLines _ ([l].map (·.bare))) = _
  rw [hadd]
  cases (layout.cards.getLast?.getD (.opened none l.number)).addLines [l] with
  | error e => rfl
  | ok c =>
    refine congrArg Except.ok ?_
    rw [bare, bare, List.map_append, List.map_dropLast]
    rfl

/-- A card is named wherever its heading stands. -/
lemma defineCard_bare (names : SymbolTable) (index : Nat) (name : Option String) (number : Nat) :
    defineCard names.bare index ⟨name, 1, []⟩ =
      mapBoth SymbolError.bare SymbolTable.bare (defineCard names index ⟨name, number, []⟩) := by
  cases name with
  | none => rfl
  | some name => exact define_bare (fun _ _ => rfl) names name ⟨index, number⟩

/-- Adding a line does not look at numbers and columns. -/
lemma addLine_bare (layout : Layout) (l : NumberedLine) :
    layout.bare.addLine l.bare = mapBoth SymbolError.bare bare (layout.addLine l) := by
  obtain ⟨number, line⟩ := l
  cases line with
  | blank => rfl
  | card name =>
    have hlength : layout.bare.cards.length = layout.cards.length := List.length_map _
    change (defineCard layout.cardNames.bare layout.bare.cards.length ⟨name, 1, []⟩).map _ =
      mapBoth _ _ ((defineCard layout.cardNames layout.cards.length ⟨name, number, []⟩).map _)
    rw [hlength, defineCard_bare layout.cardNames _ name number]
    cases defineCard layout.cardNames layout.cards.length ⟨name, number, []⟩ with
    | error e => rfl
    | ok cardNames =>
      refine congrArg Except.ok ?_
      rw [bare, bare, List.map_append]
      rfl
  | label name => exact layout.addToLast_bare ⟨number, .label name⟩
  | instruction label written => exact layout.addToLast_bare ⟨number, .instruction label written⟩

/-- Blank lines leave no trace in the layout. -/
lemma ofLines_filter_blank (lines : List NumberedLine) :
    ofLines (lines.filter (·.line ≠ .blank)) = ofLines lines := by
  rw [ofLines_eq_foldlM, ofLines_eq_foldlM]
  generalize ({} : Layout) = layout
  induction lines generalizing layout with
  | nil => rfl
  | cons l rest ih =>
    by_cases hblank : l.line = .blank
    · rw [List.filter_cons_of_neg (by simpa using hblank), ih, List.foldlM_cons,
        addLine_of_blank hblank]
      rfl
    · rw [List.filter_cons_of_pos (by simpa using hblank), List.foldlM_cons, List.foldlM_cons]
      exact congrArg _ (funext ih)

/-- The outline of a source is laid out as the source is. -/
lemma ofLines_outline (lines : List NumberedLine) :
    ofLines ((outline lines).map fun line => ⟨1, line⟩) =
      mapBoth SymbolError.bare bare (ofLines lines) := by
  have hbare : ((outline lines).map fun line => (⟨1, line⟩ : NumberedLine)) =
      (lines.filter (·.line ≠ .blank)).map (·.bare) := by
    rw [outline, List.map_map]
    rfl
  rw [hbare, ← ofLines_filter_blank lines, ofLines_eq_foldlM, ofLines_eq_foldlM]
  exact foldlM_mapBoth addLine_bare _ {}

/-- A name means the same wherever it is defined. -/
lemma meaning_bare (layout : Layout) (labels : SymbolTable) (index : Nat) (opcode : Opcode)
    (name : String) :
    layout.bare.meaning labels.bare index opcode name =
      layout.meaning labels index opcode name := by
  rw [meaning, meaning, SymbolTable.lookup_bare,
    show layout.bare.cardNames.lookup name = _ from SymbolTable.lookup_bare ..]
  cases labels.lookup name <;> cases layout.cardNames.lookup name <;> rfl

/-- A name that is not known is told without any place. -/
lemma bare_of_meaning {layout : Layout} {labels : SymbolTable} {index : Nat} {opcode : Opcode}
    {name : String} {fault : SymbolFault} (h : layout.meaning labels index opcode name = .error fault) :
    fault.bare = fault := by
  rw [meaning] at h
  split at h
  · cases h
    rfl
  all_goals
    split at h
    · cases h
    · cases h
      rfl

/-- An operand is resolved wherever it stands. -/
lemma resolve_bare (layout : Layout) (c : CardLayout) (index : Nat) (placed : PlacedInstruction) :
    layout.bare.resolve c.bare index placed.bare =
      mapBoth SymbolError.bare id (layout.resolve c index placed) := by
  obtain ⟨⟨flag, opcode, operand, column⟩, number⟩ := placed
  cases operand with
  | literal v => rfl
  | register r => rfl
  | symbol name =>
    have hmeaning : layout.bare.meaning c.bare.labels index opcode name =
        layout.meaning c.labels index opcode name := meaning_bare ..
    rw [resolve, resolve]
    dsimp only [PlacedInstruction.bare, WrittenInstruction.bare]
    rw [hmeaning]
    cases h : layout.meaning c.labels index opcode name with
    | error fault =>
      change Except.error (SymbolError.mk fault 1 1) = Except.error (SymbolError.mk fault.bare 1 1)
      rw [bare_of_meaning h]
    | ok v =>
      dsimp only
      cases Word.ofInt? v <;> rfl

end Layout

/-- The first column of the first line of a file without a name. -/
def SourceLocation.start : SourceLocation := ⟨"", 1, 1⟩

namespace Assembly

/-- A fault with another line moved to the first one. -/
def Fault.bare : Fault → Fault
  | .symbol fault => .symbol fault.bare
  | fault => fault

/-- An error moved to the start, if it has a place. -/
def Error.bare (e : Error) : Error := ⟨e.fault.bare, e.location.map fun _ => .start⟩

/-- A warning moved to the start. -/
def Warning.bare (w : Warning) : Warning := { w with location := .start }

/-- An entry of the listing moved to the start. -/
def Entry.bare (e : Entry) : Entry := { e with location := .start }

/-- A card that is opened on the first line. -/
def CardInfo.bare (c : CardInfo) : CardInfo := { c with definedAt := 1 }

/-- An assembly with everything in it moved to the start. -/
def bare (a : Assembly) : Assembly where
  program := a.program
  cards := a.cards.map (·.bare)
  warnings := a.warnings.map (·.bare)
  entries := a.entries.map (·.bare)

/-- Results can be mapped before or after they are sorted out. -/
lemma sortOut_mapBoth {ε ε' α α' : Type} (f : ε → ε') (g : α → α') (results : List (Except ε α)) :
    sortOut (results.map (mapBoth f g)) = mapBoth (List.map f) (List.map g) (sortOut results) := by
  cases h : sortOut results with
  | ok good =>
    refine sortOut_eq_ok_iff.2 ?_
    rw [sortOut_eq_ok_iff.1 h, List.map_map, List.map_map]
    rfl
  | error bad =>
    obtain ⟨rfl, hne⟩ := sortOut_eq_error_iff.1 h
    refine sortOut_eq_error_iff.2 ⟨?_, by simpa using hne⟩
    rw [List.filterMap_map, List.map_filterMap]
    refine List.filterMap_congr fun result _ => ?_
    cases result <;> rfl

section stages

variable (file : String) (layout : Layout)

/-- Cards that are too long are the same, wherever their lines stand. -/
lemma filterMap_instructions_bare {β β' : Type} (limit : Nat)
    {f : CardLayout × Nat → PlacedInstruction → β} {f' : CardLayout × Nat → PlacedInstruction → β'}
    {g : β → β'} (h : ∀ c n placed, f' (c.bare, n) placed.bare = g (f (c, n) placed)) :
    (layout.bare.cards.zipIdx.filterMap fun p => p.1.instructions[limit]?.map (f' p)) =
      (layout.cards.zipIdx.filterMap fun p => p.1.instructions[limit]?.map (f p)).map g := by
  rw [Layout.bare, List.zipIdx_map, List.filterMap_map, List.map_filterMap]
  refine List.filterMap_congr fun p _ => ?_
  change (p.1.instructions.map (·.bare))[limit]?.map (f' (p.1.bare, p.2)) =
    (p.1.instructions[limit]?.map (f p)).map g
  rw [List.getElem?_map]
  cases p.1.instructions[limit]? with
  | none => rfl
  | some placed => exact congrArg some (h p.1 p.2 placed)

/-- What is too large is so wherever it stands. -/
lemma unaddressable_bare : unaddressable "" layout.bare = (unaddressable file layout).map (·.bare) := by
  have hcard : layout.bare.cards[addressableLimit]? =
      layout.cards[addressableLimit]?.map (·.bare) := List.getElem?_map
  rw [unaddressable, unaddressable, List.map_append]
  dsimp only
  rw [hcard]
  refine congrArg₂ (· ++ ·) ?_ (filterMap_instructions_bare _ _ fun _ _ _ => rfl)
  cases layout.cards[addressableLimit]? <;> rfl

/-- The warnings on the size are the same wherever the lines stand. -/
lemma sizeWarnings_bare : sizeWarnings "" layout.bare = (sizeWarnings file layout).map (·.bare) := by
  have hcard : layout.bare.cards[recommendedCards]? =
      layout.cards[recommendedCards]?.map (·.bare) := List.getElem?_map
  have hlength : layout.bare.cards.length = layout.cards.length := List.length_map _
  rw [sizeWarnings, sizeWarnings, List.map_append]
  dsimp only
  rw [hcard, hlength]
  refine congrArg₂ (· ++ ·) ?_ (filterMap_instructions_bare _ _ fun c n placed => ?_)
  · cases layout.cards[recommendedCards]? <;> rfl
  · rw [show c.bare.instructions.length = c.instructions.length from List.length_map _]
    rfl

/-- The warning on a value is the same wherever it stands. -/
lemma valueWarning?_bare (e : Entry) : valueWarning? e.bare = (valueWarning? e).map (·.bare) := by
  obtain ⟨card, index, ⟨opcode, argument, flag⟩, location⟩ := e
  cases argument with
  | register r => rfl
  | literal v =>
    rw [valueWarning?, valueWarning?, Entry.bare]
    dsimp only
    split <;> rfl

/-- An instruction is resolved wherever it stands. -/
lemma resolveEntry_bare (c : CardLayout) (card : Nat) (placed : PlacedInstruction) (index : Nat) :
    resolveEntry "" layout.bare c.bare card placed.bare index =
      mapBoth Error.bare Entry.bare (resolveEntry file layout c card placed index) := by
  rw [resolveEntry, resolveEntry, Layout.resolve_bare]
  cases layout.resolve c index placed <;> rfl

/-- A card is resolved wherever its lines stand. -/
lemma resolveCard_bare (c : CardLayout) (card : Nat) :
    resolveCard "" layout.bare c.bare card =
      (resolveCard file layout c card).map (mapBoth Error.bare Entry.bare) := by
  rw [resolveCard, resolveCard, CardLayout.bare, List.zipIdx_map, List.map_map, List.map_map]
  refine List.map_congr_left fun p _ => ?_
  exact resolveEntry_bare file layout c card p.1 p.2

/-- Resolving names does not look at places. -/
lemma resolveAll_bare :
    resolveAll "" layout.bare =
      mapBoth (List.map Error.bare) (List.map (List.map Entry.bare)) (resolveAll file layout) := by
  have hcards :
      (layout.bare.cards.zipIdx.map fun p => sortOut (resolveCard "" layout.bare p.1 p.2)) =
      (layout.cards.zipIdx.map fun p => sortOut (resolveCard file layout p.1 p.2)).map
        (mapBoth (List.map Error.bare) (List.map Entry.bare)) := by
    rw [Layout.bare, List.zipIdx_map, List.map_map, List.map_map]
    refine List.map_congr_left fun p _ => ?_
    refine Eq.trans (congrArg sortOut ?_) (sortOut_mapBoth ..)
    exact resolveCard_bare file layout p.1 p.2
  rw [resolveAll, resolveAll]
  dsimp only
  rw [hcards, sortOut_mapBoth]
  cases sortOut (layout.cards.zipIdx.map fun p => sortOut (resolveCard file layout p.1 p.2)) with
  | ok entries => rfl
  | error errors => exact congrArg Except.error List.map_flatten.symm

/-- The entries make the same assembly wherever they stand. -/
lemma ofEntries_bare (cards : List (List Entry)) :
    ofEntries "" layout.bare (cards.map (List.map Entry.bare)) = (ofEntries file layout cards).bare := by
  have hprogram : (cards.map (List.map Entry.bare)).map (·.map Entry.instruction) =
      cards.map (·.map Entry.instruction) := by
    rw [List.map_map]
    exact List.map_congr_left fun entries _ => List.map_map
  have hcards : layout.bare.cards.map (fun c => (⟨c.name, c.definedAt⟩ : CardInfo)) =
      (layout.cards.map fun c => (⟨c.name, c.definedAt⟩ : CardInfo)).map (·.bare) := by
    rw [Layout.bare, List.map_map, List.map_map]
    rfl
  have hvalues : (cards.flatten.map Entry.bare).filterMap valueWarning? =
      (cards.flatten.filterMap valueWarning?).map (·.bare) := by
    rw [List.filterMap_map, List.map_filterMap]
    exact List.filterMap_congr fun e _ => valueWarning?_bare e
  rw [ofEntries, ofEntries, bare, hprogram, hcards, ← List.map_flatten, hvalues,
    sizeWarnings_bare file, ← List.map_append]

end stages

/-- Assembles lines that have been read. -/
def ofRead (file : String) (lines : List NumberedLine) : Except (List Error) Assembly :=
  match Layout.ofLines lines with
  | .error e => .error [symbolError file e]
  | .ok layout =>
    if unaddressable file layout = [] then (resolveAll file layout).map (ofEntries file layout)
    else .error (unaddressable file layout)

/-- A source whose lines can be read is assembled from the lines. -/
lemma ofSource_of_reads {path content : String} {lines : List NumberedLine}
    (h : Reads path content lines) : ofSource path content = ofRead path lines := by
  rw [ofSource, ofRead]
  cases hlayout : Layout.ofLines lines with
  | error e => exact ofLines_of_repeated h hlayout
  | ok layout => exact ofLines_of_layout h hlayout

/-- What comes of a source is what comes of its outline, but for the places. -/
lemma ofRead_outline (file : String) (lines : List NumberedLine) :
    ofRead "" ((outline lines).map fun line => ⟨1, line⟩) =
      mapBoth (List.map Error.bare) bare (ofRead file lines) := by
  rw [ofRead, ofRead, Layout.ofLines_outline]
  cases Layout.ofLines lines with
  | error e => rfl
  | ok layout =>
    change (if unaddressable "" layout.bare = [] then _ else _) = mapBoth _ _ (if _ then _ else _)
    rw [unaddressable_bare file]
    by_cases hbeyond : unaddressable file layout = []
    · rw [if_pos hbeyond, if_pos (List.map_eq_nil_iff.2 hbeyond), resolveAll_bare file]
      cases resolveAll file layout with
      | error errors => rfl
      | ok cards => exact congrArg Except.ok (ofEntries_bare file layout cards)
    · rw [if_neg hbeyond, if_neg (mt List.map_eq_nil_iff.1 hbeyond)]
      rfl

/-- Two sources come to the same: the same program, names of cards, listed instructions and concerns, or
the same faults, but for the lines in them. -/
inductive SameVerdict : Except (List Error) Assembly → Except (List Error) Assembly → Prop
  | assembled {a a' : Assembly} :
    a.program = a'.program →
    a.cards.map (·.name) = a'.cards.map (·.name) →
    a.entries.map (fun e => (e.card, e.index, e.instruction)) =
      a'.entries.map (fun e => (e.card, e.index, e.instruction)) →
    a.warnings.map (·.concern) = a'.warnings.map (·.concern) →
    SameVerdict (.ok a) (.ok a')
  | refused {errors errors' : List Error} :
    errors.map (·.fault.bare) = errors'.map (·.fault.bare) →
    SameVerdict (.error errors) (.error errors')

/-- What is the same when all is moved to the start is the same verdict. -/
lemma sameVerdict_of_mapBoth_eq {result result' : Except (List Error) Assembly}
    (h : mapBoth (List.map Error.bare) bare result = mapBoth (List.map Error.bare) bare result') :
    SameVerdict result result' := by
  cases result with
  | error errors =>
    cases result' with
    | error errors' =>
      have hfaults := congrArg (List.map Error.fault) (Except.error.inj h)
      rw [List.map_map, List.map_map] at hfaults
      exact .refused hfaults
    | ok a' => cases h
  | ok a =>
    cases result' with
    | error errors' => cases h
    | ok a' =>
      obtain ⟨hprogram, hcards, hwarnings, hentries⟩ := Assembly.mk.inj (Except.ok.inj h)
      have hnames := congrArg (List.map CardInfo.name) hcards
      have hconcerns := congrArg (List.map Warning.concern) hwarnings
      have hlisted := congrArg (List.map fun e : Entry => (e.card, e.index, e.instruction)) hentries
      rw [List.map_map, List.map_map] at hnames hconcerns hlisted
      exact .assembled hprogram hnames hlisted hconcerns

/-- A verdict depends on what the lines of a source say, and not on where they stand. -/
theorem verdict_depends_on_outline {path path' content content' : String}
    {lines lines' : List NumberedLine} (h : Reads path content lines)
    (h' : Reads path' content' lines') (same : outline lines = outline lines') :
    SameVerdict (ofSource path content) (ofSource path' content') := by
  apply sameVerdict_of_mapBoth_eq
  rw [ofSource_of_reads h, ofSource_of_reads h', ← ofRead_outline, ← ofRead_outline, same]

/-- A loop, and a card that the machine can go to. -/
def plainLoop : String := "top: LDA 1500 ; too much\n\nJMP top\n.card dock\nCRD dock"

/-- The lines of `plainLoop` in a text. -/
def literateLoop : String :=
  "# Loop\nTwice round\n\n```cards\n  top:\tlda, 1500\njmp top\n```\n\nand home:\n\n" ++
    "```cards\n.CARD dock\n; at last\n  crd   dock\n```\n"

/-- `plainLoop` and `literateLoop` are read and have the same verdict. -/
theorem plainLoop_literateLoop_same_verdict :
    ∃ lines lines', Reads "loop.cards" plainLoop lines ∧ Reads "loop.md" literateLoop lines' ∧
      lines ≠ lines' ∧ outline lines = outline lines' ∧
      SameVerdict (ofSource "loop.cards" plainLoop) (ofSource "loop.md" literateLoop) := by
  have hplain : Reads "loop.cards" plainLoop
      [⟨1, .instruction (some "top") ⟨none, .lda, .literal 1500, 10⟩⟩, ⟨2, .blank⟩,
        ⟨3, .instruction none ⟨none, .jmp, .symbol "top", 5⟩⟩, ⟨4, .card (some "dock")⟩,
        ⟨5, .instruction none ⟨none, .crd, .symbol "dock", 5⟩⟩] := by
    unfold Reads
    decide +kernel
  have hliterate : Reads "loop.md" literateLoop
      [⟨5, .instruction (some "top") ⟨none, .lda, .literal 1500, 13⟩⟩,
        ⟨6, .instruction none ⟨none, .jmp, .symbol "top", 5⟩⟩, ⟨12, .card (some "dock")⟩, ⟨13, .blank⟩,
        ⟨14, .instruction none ⟨none, .crd, .symbol "dock", 9⟩⟩] := by
    unfold Reads
    decide +kernel
  exact ⟨_, _, hplain, hliterate, by decide, rfl, verdict_depends_on_outline hplain hliterate rfl⟩

end Assembly

end CardMachine
