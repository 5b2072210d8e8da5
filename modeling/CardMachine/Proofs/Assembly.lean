import CardMachine.Assembly
import CardMachine.Proofs.Layout

/-!
# What an assembly holds

A source assembles when each stage passes everything on: every line is read, the names are laid out,
every position can be named, every operand is resolved (`ofLines_eq_ok_iff`). What comes out has the
shape of the layout, card for card (`cardCount_eq`) and instruction for instruction
(`instruction?_eq`). A stage that does not pass tells all that is bad, in order
(`sortOut_eq_error_iff`, `resolveAll_eq_error_iff`).
-/

namespace CardMachine.Assembly

/-- The assembly of a layout whose instructions are resolved. -/
def ofEntries (file : String) (layout : Layout) (cards : List (List Entry)) : Assembly where
  program := .ofCards (cards.map (·.map Entry.instruction))
  cards := layout.cards.map fun c => ⟨c.name, c.definedAt⟩
  warnings := sizeWarnings file layout ++ cards.flatten.filterMap valueWarning?
  entries := cards.flatten

section sortOut

variable {ε α : Type}

/-- A good result in front is kept if the rest is good. -/
lemma sortOut_cons_ok (value : α) (results : List (Except ε α)) :
    sortOut (.ok value :: results) = (sortOut results).map (value :: ·) := by
  rw [sortOut, sortOut, apply_ite (Except.map _)]
  rfl

/-- One bad result is enough. -/
lemma sortOut_cons_error (e : ε) (results : List (Except ε α)) (good : List α) :
    sortOut (.error e :: results) ≠ .ok good := by
  simp [sortOut]

/-- Nothing is lost and nothing is bad. -/
lemma sortOut_eq_ok_iff {results : List (Except ε α)} {good : List α} :
    sortOut results = .ok good ↔ results = good.map .ok := by
  induction results generalizing good with
  | nil =>
    constructor
    · rintro ⟨⟩; rfl
    · intro h; rw [List.map_eq_nil_iff.1 h.symm]; rfl
  | cons result rest ih =>
    cases result with
    | error e =>
      refine ⟨fun h => absurd h (sortOut_cons_error e rest good), fun h => ?_⟩
      cases good <;> cases h
    | ok value =>
      rw [sortOut_cons_ok]
      cases good with
      | nil => cases sortOut rest <;> simp [Except.map]
      | cons first good =>
        rw [List.map_cons, List.cons.injEq, ← ih]
        cases sortOut rest <;> simp [Except.map]

/-- Lists of results are good one by one exactly if all results in them are. -/
lemma map_sortOut_eq_iff {results : List (List (Except ε α))} {goods : List (List α)} :
    results.map sortOut = goods.map .ok ↔ results = goods.map (·.map .ok) := by
  induction results generalizing goods with
  | nil => cases goods <;> simp
  | cons result rest ih => cases goods <;> simp [sortOut_eq_ok_iff, ih]

/-- What is wrong with a result. -/
def error? : Except ε α → Option ε
  | .error e => some e
  | .ok _ => none

/-- Among good results there is no error. -/
lemma filterMap_error?_map_ok (good : List α) : (good.map (.ok (ε := ε))).filterMap error? = [] := by
  simp [List.filterMap_map, List.filterMap_eq_nil_iff, error?]

/-- Bad results are told all and in order, if there are any. -/
lemma sortOut_eq_error_iff {results : List (Except ε α)} {bad : List ε} :
    sortOut results = .error bad ↔ results.filterMap error? = bad ∧ bad ≠ [] := by
  change (if (results.filterMap error?).isEmpty then _ else Except.error (results.filterMap error?)) =
    _ ↔ _
  split
  · next h =>
    rw [List.isEmpty_iff.1 h]
    constructor
    · rintro ⟨⟩
    · rintro ⟨rfl, hne⟩
      exact absurd rfl hne
  · next h =>
    constructor
    · rintro ⟨⟩
      exact ⟨rfl, fun hnil => h (List.isEmpty_iff.2 hnil)⟩
    · rintro ⟨rfl, -⟩
      rfl

/-- If sorting out fails, it has something to tell. -/
lemma ne_nil_of_error?_sortOut {results : List (Except ε α)} {bad : List ε}
    (h : error? (sortOut results) = some bad) : bad ≠ [] := by
  cases hsorted : sortOut results with
  | ok good => rw [hsorted] at h; cases h
  | error bad' =>
    rw [hsorted] at h
    cases h
    exact (sortOut_eq_error_iff.1 hsorted).2

/-- Sorting out twice tells the same bad results as sorting out once. -/
lemma flatten_filterMap_sortOut (results : List (List (Except ε α))) :
    ((results.map sortOut).filterMap error?).flatten = results.flatten.filterMap error? := by
  induction results with
  | nil => rfl
  | cons result rest ih =>
    rw [List.map_cons, List.flatten_cons, List.filterMap_append, ← ih]
    cases h : sortOut result with
    | ok good =>
      rw [List.filterMap_cons_none rfl, sortOut_eq_ok_iff.1 h, filterMap_error?_map_ok,
        List.nil_append]
    | error bad =>
      obtain ⟨rfl, -⟩ := sortOut_eq_error_iff.1 h
      rw [List.filterMap_cons_some (show error? _ = some _ from rfl), List.flatten_cons]

end sortOut

/-- What becomes of each instruction, in program order. -/
def resolutions (file : String) (layout : Layout) : List (Except Error Entry) :=
  layout.cards.zipIdx.flatMap fun (c, card) => resolveCard file layout c card

/-- To resolve a layout is to resolve its cards one by one and to sort out twice. -/
lemma resolveAll_eq (file : String) (layout : Layout) :
    resolveAll file layout =
      match sortOut ((layout.cards.zipIdx.map fun (c, card) =>
        resolveCard file layout c card).map sortOut) with
      | .ok entries => .ok entries
      | .error errors => .error errors.flatten := by
  rw [List.map_map]
  rfl

/-- A layout is resolved exactly if every instruction of every card is. -/
lemma resolveAll_eq_ok_iff {file : String} {layout : Layout} {cards : List (List Entry)} :
    resolveAll file layout = .ok cards ↔
      (layout.cards.zipIdx.map fun (c, card) => resolveCard file layout c card) =
        cards.map (·.map .ok) := by
  rw [← map_sortOut_eq_iff, ← sortOut_eq_ok_iff, resolveAll_eq]
  generalize sortOut _ = sorted
  cases sorted <;> simp

/-- If a layout is resolved, all its resolutions are good, in program order. -/
lemma resolutions_eq_of_ok {file : String} {layout : Layout} {cards : List (List Entry)}
    (h : resolveAll file layout = .ok cards) :
    resolutions file layout = cards.flatten.map .ok := by
  rw [resolutions, List.flatMap_def, resolveAll_eq_ok_iff.1 h, List.map_flatten]

/-- What cannot be resolved is told instruction by instruction. -/
lemma resolveAll_eq_error_iff {file : String} {layout : Layout} {errors : List Error} :
    resolveAll file layout = .error errors ↔
      (resolutions file layout).filterMap error? = errors ∧ errors ≠ [] := by
  rw [resolutions, List.flatMap_def, ← flatten_filterMap_sortOut, resolveAll_eq]
  split
  · next entries hok =>
    rw [sortOut_eq_ok_iff.1 hok, filterMap_error?_map_ok]
    constructor
    · rintro ⟨⟩
    · rintro ⟨rfl, hne⟩
      exact absurd rfl hne
  · next bad hbad =>
    obtain ⟨rfl, hne⟩ := sortOut_eq_error_iff.1 hbad
    -- a card is bad only if one of its instructions is
    obtain ⟨first, hfirst⟩ := List.exists_mem_of_ne_nil _ hne
    obtain ⟨_, hmem, hsorted⟩ := List.mem_filterMap.1 hfirst
    obtain ⟨results, -, rfl⟩ := List.mem_map.1 hmem
    have hflat := List.flatten_ne_nil_iff.2 ⟨first, hfirst, ne_nil_of_error?_sortOut hsorted⟩
    constructor
    · rintro ⟨⟩
      exact ⟨rfl, hflat⟩
    · rintro ⟨rfl, -⟩
      rfl

/-- There is nothing to tell of the size exactly if a pointer can name every card and every position.
-/
lemma unaddressable_eq_nil_iff {file : String} {layout : Layout} :
    unaddressable file layout = [] ↔
      layout.cards.length ≤ addressableLimit ∧
        ∀ c ∈ layout.cards, c.instructions.length ≤ addressableLimit := by
  rw [unaddressable, List.append_eq_nil_iff]
  refine and_congr ?_ ?_
  · split
    · next h =>
      have := (List.getElem?_eq_some_iff.1 h).1
      simp only [List.cons_ne_nil, false_iff]
      omega
    · next h => simpa using h
  · simp only [List.filterMap_eq_nil_iff, Option.map_eq_none_iff, List.getElem?_eq_none_iff]
    constructor
    · intro h c hc
      obtain ⟨n, hn⟩ := List.mem_iff_getElem?.1 hc
      exact h (c, n) (List.mk_mem_zipIdx_iff_getElem?.2 hn)
    · rintro h ⟨c, n⟩ hc
      exact h c (List.mem_of_getElem? (List.mk_mem_zipIdx_iff_getElem?.1 hc))

/-- A source assembles exactly if every stage passes everything on. -/
lemma ofLines_eq_ok_iff {file : String} {source : List SourceLine} {a : Assembly} :
    ofLines file source = .ok a ↔
      ∃ lines layout cards, source.map (readLine file) = lines.map .ok ∧
        Layout.ofLines lines = .ok layout ∧ unaddressable file layout = [] ∧
        resolveAll file layout = .ok cards ∧ a = ofEntries file layout cards := by
  rw [ofLines]
  constructor
  · intro h
    split at h
    · cases h
    · next lines hlines =>
      split at h
      · cases h
      · next layout hlayout =>
        dsimp only at h
        split at h
        · next hbeyond =>
          split at h
          · cases h
          · next cards hcards =>
            cases h
            exact ⟨lines, layout, cards, sortOut_eq_ok_iff.1 hlines, hlayout,
              List.isEmpty_iff.1 hbeyond, hcards, rfl⟩
        · cases h
  · rintro ⟨lines, layout, cards, hlines, hlayout, hbeyond, hcards, rfl⟩
    rw [sortOut_eq_ok_iff.2 hlines]
    dsimp only
    rw [hlayout]
    dsimp only
    rw [hbeyond, hcards]
    rfl

section stages

variable {file : String} {source : List SourceLine} {lines : List NumberedLine}

/-- Lines that cannot be read stop an assembly. -/
lemma ofLines_of_unread {errors : List Error}
    (h : sortOut (source.map (readLine file)) = .error errors) : ofLines file source = .error errors := by
  rw [ofLines, h]

variable (hread : source.map (readLine file) = lines.map .ok)
include hread

/-- So does a name that is given twice. -/
lemma ofLines_of_repeated {e : SymbolError} (h : Layout.ofLines lines = .error e) :
    ofLines file source = .error [symbolError file e] := by
  rw [ofLines, sortOut_eq_ok_iff.2 hread]
  dsimp only
  rw [h]

/-- A layout goes on to the operands if every position of it can be named. -/
lemma ofLines_of_layout {layout : Layout} (h : Layout.ofLines lines = .ok layout) :
    ofLines file source =
      if unaddressable file layout = [] then (resolveAll file layout).map (ofEntries file layout)
      else .error (unaddressable file layout) := by
  rw [ofLines, sortOut_eq_ok_iff.2 hread]
  dsimp only
  rw [h]
  simp only [List.isEmpty_iff]
  congr 1
  cases resolveAll file layout <;> rfl

end stages

section resolved

variable {file : String} {layout : Layout} {cards : List (List Entry)}

/-- The entries of a card are its instructions, resolved. -/
lemma entries_of_card (h : resolveAll file layout = .ok cards) {n : Nat} {c : CardLayout}
    (hc : layout.cards[n]? = some c) :
    ∃ entries, cards[n]? = some entries ∧ resolveCard file layout c n = entries.map .ok := by
  have hn := congrArg (·[n]?) (resolveAll_eq_ok_iff.1 h)
  simp only [List.getElem?_map, List.getElem?_zipIdx, hc, Option.map_some, Nat.zero_add] at hn
  obtain ⟨entries, hentries, e⟩ := Option.map_eq_some_iff.1 hn.symm
  exact ⟨entries, hentries, e.symm⟩

/-- A resolved layout has as many cards as it had. -/
lemma length_cards (h : resolveAll file layout = .ok cards) :
    cards.length = layout.cards.length := by
  simpa using (congrArg List.length (resolveAll_eq_ok_iff.1 h)).symm

/-- A resolved card has as many instructions as it had. -/
lemma length_entries {c : CardLayout} {n : Nat} {entries : List Entry}
    (h : resolveCard file layout c n = entries.map .ok) : entries.length = c.instructions.length := by
  simpa [resolveCard] using (congrArg List.length h).symm

variable (hbeyond : unaddressable file layout = []) (hcards : resolveAll file layout = .ok cards)
include hbeyond hcards

/-- Every position of a program that passed the check for pointers can be named, so all of it is
kept. -/
lemma addressable_of_resolveAll : Addressable (cards.map (·.map Entry.instruction)) := by
  obtain ⟨hcount, hlength⟩ := unaddressable_eq_nil_iff.1 hbeyond
  refine ⟨by rw [List.length_map, length_cards hcards]; exact hcount, fun card hcard => ?_⟩
  obtain ⟨entries, hentries, rfl⟩ := List.mem_map.1 hcard
  obtain ⟨n, hn⟩ := List.mem_iff_getElem?.1 hentries
  have hlt : n < layout.cards.length := length_cards hcards ▸ (List.getElem?_eq_some_iff.1 hn).1
  obtain ⟨entries', hn', hresolve⟩ := entries_of_card hcards (List.getElem?_eq_getElem hlt)
  cases hn.symm.trans hn'
  rw [List.length_map, length_entries hresolve]
  exact hlength _ (List.getElem_mem hlt)

/-- The program consists of the instructions of the entries: within the limits nothing is cut off. -/
lemma cards_ofEntries :
    (ofEntries file layout cards).program.cards = cards.map (·.map Entry.instruction) :=
  (Program.cards_ofCards_eq_iff _).2 (addressable_of_resolveAll hbeyond hcards)

/-- The program has the cards of the layout. -/
lemma cardCount_eq : (ofEntries file layout cards).program.cardCount = layout.cards.length := by
  rw [Program.cardCount, cards_ofEntries hbeyond hcards, List.length_map, length_cards hcards]

/-- Each card of the program is the resolved card of the layout. -/
lemma card_eq {n : Nat} {c : CardLayout} (hc : layout.cards[n]? = some c) :
    ∃ entries : List Entry, (ofEntries file layout cards).program.card n = entries.map Entry.instruction ∧
      resolveCard file layout c n = entries.map .ok := by
  obtain ⟨entries, hentries, hresolve⟩ := entries_of_card hcards hc
  refine ⟨entries, ?_, hresolve⟩
  rw [Program.card, cards_ofEntries hbeyond hcards, List.getD_eq_getElem?_getD, List.getElem?_map,
    hentries]
  rfl

/-- The instruction at a position is the one the layout has there, with its operand resolved. -/
lemma instruction?_eq {n i : Nat} {c : CardLayout} {placed : PlacedInstruction}
    (hc : layout.cards[n]? = some c) (hi : c.instructions[i]? = some placed) :
    ∃ argument, layout.resolve c i placed = .ok argument ∧
      (ofEntries file layout cards).program.instruction? n i =
        some ⟨placed.written.opcode, argument, placed.written.flag⟩ := by
  obtain ⟨entries, hcard, hresolve⟩ := card_eq hbeyond hcards hc
  have hentry := congrArg (·[i]?) hresolve
  simp only [resolveCard, List.getElem?_map, List.getElem?_zipIdx, hi, Option.map_some,
    Nat.zero_add] at hentry
  obtain ⟨entry, he, e⟩ := Option.map_eq_some_iff.1 hentry.symm
  rw [resolveEntry] at e
  split at e
  · cases e
  · next argument hargument =>
    cases e
    refine ⟨argument, hargument, ?_⟩
    rw [Program.instruction?, hcard, List.getElem?_map, he]
    rfl

end resolved

end CardMachine.Assembly
