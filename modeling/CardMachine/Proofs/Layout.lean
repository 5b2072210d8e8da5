import CardMachine.Layout
import Mathlib.Tactic.Lemma

/-!
# What a layout holds

Labels and card names are collected in the same way: names come one after the other, each with its
meaning, and a name that comes twice is refused. `defineAll` is that pass on its own, and both
collections are instances of it (`collectLabels_eq`, `layCards_eq_ok_iff`). So whatever a finished
table tells about a name was said in exactly one place (`lookup_defineAll`), and a pass fails exactly
where a name comes again (`exists_defineAll_iff`).

`ofLines_eq_ok_iff` says what a layout is: the sections of the source laid out one by one, and the
table of their names.
-/

namespace CardMachine

/-- Results that are all good are the good ones of a list. -/
lemma exists_map_ok_iff {ε α β : Type} {f : α → Except ε β} {l : List α} :
    (∃ good : List β, l.map f = good.map .ok) ↔ ∀ a ∈ l, ∃ b, f a = .ok b := by
  induction l with
  | nil => exact ⟨nofun, fun _ => ⟨[], rfl⟩⟩
  | cons a rest ih =>
    rw [List.forall_mem_cons, ← ih]
    constructor
    · rintro ⟨_ | ⟨b, good⟩, h⟩
      · cases h
      · obtain ⟨hb, hrest⟩ := List.cons.inj h
        exact ⟨⟨b, hb⟩, good, hrest⟩
    · rintro ⟨⟨b, hb⟩, good, hrest⟩
      exact ⟨b :: good, by rw [List.map_cons, List.map_cons, hb, hrest]⟩

/-- Is a line an instruction? -/
def NumberedLine.isInstruction (l : NumberedLine) : Bool :=
  match l.line with
  | .instruction _ _ => true
  | _ => false

/-- A line counts if it is an instruction. -/
lemma NumberedLine.weight_line (l : NumberedLine) :
    l.line.weight = if l.isInstruction then 1 else 0 := by
  rw [isInstruction]
  cases l.line <;> rfl

namespace Layout

/-- Gives names their meanings, one after the other. -/
def defineAll (duplicate : String → Nat → SymbolFault) (table : SymbolTable) :
    List (Option String × Symbol) → Except SymbolError SymbolTable
  | [] => .ok table
  | (none, _) :: rest => defineAll duplicate table rest
  | (some name, symbol) :: rest =>
    match define table name symbol duplicate with
    | .error e => .error e
    | .ok table => defineAll duplicate table rest

/-- The labels of lines with `index` instructions before them, and the lines without one. -/
def labelEntries (index : Nat) : List NumberedLine → List (Option String × Symbol)
  | [] => []
  | l :: rest => (l.line.label?, ⟨index, l.number⟩) :: labelEntries (index + l.line.weight) rest

/-- The names of sections, the first of them being the `index`-th, and the sections without one. -/
def nameEntries (index : Nat) : List Section → List (Option String × Symbol)
  | [] => []
  | s :: rest => (s.name, ⟨index, s.definedAt⟩) :: nameEntries (index + 1) rest

/-- Lays out one section. -/
def lay (s : Section) : Except SymbolError CardLayout :=
  (collectLabels [] 0 s.body).map fun labels => ⟨s.name, s.definedAt, labels, s.instructions⟩

/-- A name that is given was new and means now what is said; the others mean what they meant. -/
lemma defineAll_cons_eq_ok {duplicate : String → Nat → SymbolFault} {table table' : SymbolTable}
    {given : Option String} {meant : Symbol} {rest : List (Option String × Symbol)}
    (h : defineAll duplicate table ((given, meant) :: rest) = .ok table') :
    ∃ next, defineAll duplicate next rest = .ok table' ∧ ∀ name,
      (given = some name → table.lookup name = none ∧ next.lookup name = some meant) ∧
      (given ≠ some name → next.lookup name = table.lookup name) := by
  cases given with
  | none =>
    refine ⟨table, h, fun name => ⟨?_, fun _ => rfl⟩⟩
    rintro ⟨⟩
  | some other =>
    rw [defineAll, define] at h
    cases hother : table.lookup other with
    | some earlier => rw [hother] at h; cases h
    | none =>
      rw [hother] at h
      refine ⟨_, h, fun name => ?_⟩
      rw [Dict.lookup_insert]
      constructor
      · rintro e
        cases e
        exact ⟨hother, if_pos rfl⟩
      · intro hne
        refine if_neg ?_
        rintro rfl
        exact hne rfl

/-- What a finished table tells about a name was there from the start, and then the name is not
given again; or it is new, and given in one place. -/
lemma lookup_defineAll {duplicate : String → Nat → SymbolFault} {table table' : SymbolTable}
    {entries : List (Option String × Symbol)} (h : defineAll duplicate table entries = .ok table')
    {name : String} {symbol : Symbol} (hlookup : table'.lookup name = some symbol) :
    (table.lookup name = some symbol ∧ ∀ (j : Nat) (s : Symbol), entries[j]? ≠ some (some name, s)) ∨
    (table.lookup name = none ∧ ∃ j : Nat, entries[j]? = some (some name, symbol) ∧
      ∀ (j' : Nat) (s : Symbol), entries[j']? = some (some name, s) → j' = j) := by
  induction entries generalizing table with
  | nil =>
    cases h
    exact .inl ⟨hlookup, fun j s => by simp⟩
  | cons entry rest ih =>
    obtain ⟨given, meant⟩ := entry
    obtain ⟨next, hnext, hstep⟩ := defineAll_cons_eq_ok h
    obtain ⟨hgiven, hother⟩ := hstep name
    by_cases e : given = some name
    · obtain ⟨hnone, hmeant⟩ := hgiven e
      subst e
      -- the name is given here, so it was new here and does not come again
      rcases ih hnext with ⟨hsymbol, hrest⟩ | ⟨hnew, _⟩
      · cases hmeant.symm.trans hsymbol
        refine .inr ⟨hnone, 0, rfl, ?_⟩
        rintro (_ | j') s hs
        · rfl
        · exact absurd hs (hrest j' s)
      · cases hmeant.symm.trans hnew
    · have hhead (s : Symbol) : ((given, meant) :: rest)[0]? ≠ some (some name, s) := by
        rintro hs
        cases hs
        exact e rfl
      rw [← hother e]
      rcases ih hnext with ⟨hold, hrest⟩ | ⟨hnew, j, hj, hrest⟩
      · refine .inl ⟨hold, ?_⟩
        rintro (_ | j) s
        · exact hhead s
        · exact hrest j s
      · refine .inr ⟨hnew, j + 1, hj, ?_⟩
        rintro (_ | j') s hs
        · exact absurd hs (hhead s)
        · rw [hrest j' s hs]

/-- Names can be given exactly if each of them is new and given once. -/
lemma exists_defineAll_iff {duplicate : String → Nat → SymbolFault} {table : SymbolTable}
    {entries : List (Option String × Symbol)} :
    (∃ table', defineAll duplicate table entries = .ok table') ↔
      (entries.filterMap Prod.fst).Nodup ∧
        ∀ name ∈ entries.filterMap Prod.fst, table.lookup name = none := by
  induction entries generalizing table with
  | nil => simp [defineAll]
  | cons entry rest ih =>
    obtain ⟨given, meant⟩ := entry
    cases given with
    | none => rw [List.filterMap_cons_none rfl]; exact ih
    | some name =>
      have hcons : ((some name, meant) :: rest).filterMap Prod.fst = name :: rest.filterMap Prod.fst :=
        rfl
      rw [hcons, defineAll, define]
      cases hname : table.lookup name with
      | some earlier =>
        refine ⟨nofun, ?_⟩
        rintro ⟨-, hnew⟩
        cases hname.symm.trans (hnew name List.mem_cons_self)
      | none =>
        dsimp only
        rw [ih, List.nodup_cons, List.forall_mem_cons]
        constructor
        · rintro ⟨hnodup, hnew⟩
          have hother (other : String) (hmem : other ∈ rest.filterMap Prod.fst) :
              other ≠ name ∧ table.lookup other = none := by
            have h := hnew other hmem
            rw [Dict.lookup_insert] at h
            split at h
            · cases h
            · next hne => exact ⟨hne, h⟩
          exact ⟨⟨fun hmem => (hother name hmem).1 rfl, hnodup⟩, hname,
            fun other hmem => (hother other hmem).2⟩
        · rintro ⟨⟨hnot, hnodup⟩, -, hnew⟩
          refine ⟨hnodup, fun other hmem => ?_⟩
          rw [Dict.lookup_insert, if_neg]
          · exact hnew other hmem
          · rintro rfl
            exact hnot hmem

/-- A name keeps its meaning when others are defined. -/
lemma lookup_defineAll_of_lookup {duplicate : String → Nat → SymbolFault} {table table' : SymbolTable}
    {entries : List (Option String × Symbol)} (h : defineAll duplicate table entries = .ok table')
    {name : String} {symbol : Symbol} (hlookup : table.lookup name = some symbol) :
    table'.lookup name = some symbol := by
  induction entries generalizing table with
  | nil => cases h; exact hlookup
  | cons entry rest ih =>
    obtain ⟨next, hnext, hstep⟩ := defineAll_cons_eq_ok h
    obtain ⟨hgiven, hother⟩ := hstep name
    refine ih hnext ((hother fun e => ?_).trans hlookup)
    rw [(hgiven e).1] at hlookup
    cases hlookup

/-- A name that is defined has the meaning it was given. -/
lemma lookup_defineAll_of_mem {duplicate : String → Nat → SymbolFault} {table table' : SymbolTable}
    {entries : List (Option String × Symbol)} (h : defineAll duplicate table entries = .ok table')
    {name : String} {symbol : Symbol} (hmem : (some name, symbol) ∈ entries) :
    table'.lookup name = some symbol := by
  induction entries generalizing table with
  | nil => cases hmem
  | cons entry rest ih =>
    obtain ⟨next, hnext, hstep⟩ := defineAll_cons_eq_ok h
    rcases List.mem_cons.1 hmem with rfl | hmem
    · exact lookup_defineAll_of_lookup hnext ((hstep name).1 rfl).2
    · exact ih hnext hmem

/-- A table that began empty tells what was given and nothing else. -/
lemma lookup_defineAll_iff {duplicate : String → Nat → SymbolFault} {table : SymbolTable}
    {entries : List (Option String × Symbol)} (h : defineAll duplicate [] entries = .ok table)
    {name : String} {symbol : Symbol} :
    table.lookup name = some symbol ↔ (some name, symbol) ∈ entries := by
  refine ⟨fun hlookup => ?_, lookup_defineAll_of_mem h⟩
  obtain ⟨hnone, -⟩ | ⟨-, j, hj, -⟩ := lookup_defineAll h hlookup
  · cases hnone
  · exact List.mem_of_getElem? hj

/-- What is refused is a name that is given again, and the line that gave it first is told. -/
lemma define_eq_error {duplicate : String → Nat → SymbolFault} {table : SymbolTable} {name : String}
    {symbol : Symbol} {e : SymbolError} (h : define table name symbol duplicate = .error e) :
    ∃ earlier, table.lookup name = some earlier ∧
      e = ⟨duplicate name earlier.definedAt, symbol.definedAt, 1⟩ := by
  rw [define] at h
  split at h
  · next earlier hearlier => cases h; exact ⟨earlier, hearlier, rfl⟩
  · cases h

/-- Definitions fail only on a name that is there already. -/
lemma fault_of_defineAll {duplicate : String → Nat → SymbolFault} {table : SymbolTable}
    {entries : List (Option String × Symbol)} {e : SymbolError}
    (h : defineAll duplicate table entries = .error e) : ∃ name first, e.fault = duplicate name first := by
  induction entries generalizing table with
  | nil => cases h
  | cons entry rest ih =>
    obtain ⟨given, meant⟩ := entry
    cases given with
    | none => exact ih h
    | some name =>
      rw [defineAll] at h
      split at h
      · next hdefine =>
        cases h
        obtain ⟨earlier, -, rfl⟩ := define_eq_error hdefine
        exact ⟨name, earlier.definedAt, rfl⟩
      · exact ih h

/-- Definitions keep a table in order. -/
lemma sorted_of_defineAll {duplicate : String → Nat → SymbolFault} {table table' : SymbolTable}
    {entries : List (Option String × Symbol)} (h : defineAll duplicate table entries = .ok table')
    (sorted : Dict.Sorted table) : Dict.Sorted table' := by
  induction entries generalizing table with
  | nil => cases h; exact sorted
  | cons entry rest ih =>
    obtain ⟨given, meant⟩ := entry
    cases given with
    | none => exact ih h sorted
    | some name =>
      rw [defineAll, define] at h
      cases hname : table.lookup name with
      | some earlier => rw [hname] at h; cases h
      | none =>
        rw [hname] at h
        exact ih h (sorted.insert name meant)

/-- What has no name is not put into the table. -/
lemma defineAll_of_unnamed {duplicate : String → Nat → SymbolFault} {table : SymbolTable}
    {entries : List (Option String × Symbol)} (h : ∀ entry ∈ entries, entry.1 = none) :
    defineAll duplicate table entries = .ok table := by
  induction entries with
  | nil => rfl
  | cons entry rest ih =>
    obtain ⟨given, meant⟩ := entry
    obtain rfl : given = none := h _ List.mem_cons_self
    exact ih fun entry hentry => h entry (List.mem_cons_of_mem _ hentry)

/-- To collect labels is to define those of the lines one by one. -/
lemma collectLabels_eq (table : SymbolTable) (index : Nat) (lines : List NumberedLine) :
    collectLabels table index lines =
      defineAll .duplicateLabel table (labelEntries index lines) := by
  induction lines generalizing table index with
  | nil => rfl
  | cons l rest ih =>
    rw [collectLabels, labelEntries]
    cases l.line.label? with
    | none => exact ih table _
    | some name =>
      dsimp only
      rw [defineAll]
      split <;> simp only [*]

/-- A label means the position of the first instruction from its line on. -/
lemma getElem?_labelEntries (index : Nat) (lines : List NumberedLine) (j : Nat) :
    (labelEntries index lines)[j]? = lines[j]?.map fun l =>
      (l.line.label?, ⟨index + (lines.take j).countP (·.isInstruction), l.number⟩) := by
  induction lines generalizing index j with
  | nil => rfl
  | cons l rest ih =>
    cases j with
    | zero => rfl
    | succ j =>
      rw [labelEntries, List.getElem?_cons_succ, ih, List.getElem?_cons_succ]
      rw [List.take_succ_cons, List.countP_cons, ← NumberedLine.weight_line, Nat.add_assoc,
        Nat.add_comm l.line.weight]

/-- The names among the label entries are the labels of the lines. -/
lemma filterMap_fst_labelEntries (index : Nat) (lines : List NumberedLine) :
    (labelEntries index lines).filterMap Prod.fst = lines.filterMap (·.line.label?) := by
  induction lines generalizing index with
  | nil => rfl
  | cons l rest ih => rw [labelEntries, List.filterMap_cons, List.filterMap_cons, ih]

lemma filterMap_fst_nameEntries (index : Nat) (sections : List Section) :
    (nameEntries index sections).filterMap Prod.fst = sections.filterMap (·.name) := by
  induction sections generalizing index with
  | nil => rfl
  | cons s rest ih => rw [nameEntries, List.filterMap_cons, List.filterMap_cons, ih]

/-- The name of a card means its index. -/
lemma getElem?_nameEntries (index : Nat) (sections : List Section) (j : Nat) :
    (nameEntries index sections)[j]? = sections[j]?.map fun s => (s.name, ⟨index + j, s.definedAt⟩) := by
  induction sections generalizing index j with
  | nil => rfl
  | cons s rest ih =>
    cases j with
    | zero => rfl
    | succ j =>
      rw [nameEntries, List.getElem?_cons_succ, ih, List.getElem?_cons_succ, Nat.add_assoc,
        Nat.add_comm 1 j]

/-- A label that was collected stands on one line, and means the number of instructions before it. -/
lemma lookup_collectLabels {lines : List NumberedLine} {labels : SymbolTable}
    (h : collectLabels [] 0 lines = .ok labels) {name : String} {symbol : Symbol}
    (hlookup : labels.lookup name = some symbol) :
    ∃ j : Nat, symbol.index = (lines.take j).countP (·.isInstruction) ∧
      ∀ j' : Nat, (∃ l, lines[j']? = some l ∧ l.line.label? = some name) ↔ j' = j := by
  rw [collectLabels_eq] at h
  obtain ⟨hnone, _⟩ | ⟨_, j, hj, honly⟩ := lookup_defineAll h hlookup
  · cases hnone
  · simp only [getElem?_labelEntries, Option.map_eq_some_iff] at hj honly
    obtain ⟨l, hl, e⟩ := hj
    obtain ⟨hlabel, rfl⟩ := Prod.mk.inj e
    refine ⟨j, Nat.zero_add _, fun j' => ⟨?_, ?_⟩⟩
    · rintro ⟨l', hl', hlabel'⟩
      exact honly j' _ ⟨l', hl', by rw [hlabel']⟩
    · rintro rfl
      exact ⟨l, hl, hlabel⟩

/-- The layout of sections: each of them laid out, and the table of their names. -/
lemma layCards_eq_ok_iff {done : List CardLayout} {index : Nat} {names : SymbolTable}
    {sections : List Section} {layout : Layout} :
    layCards done index names sections = .ok layout ↔
      ∃ laid, sections.map lay = laid.map .ok ∧ layout.cards = done.reverse ++ laid ∧
        defineAll .duplicateCard names (nameEntries index sections) = .ok layout.cardNames := by
  induction sections generalizing done index names with
  | nil =>
    rw [layCards, nameEntries, defineAll]
    constructor
    · rintro h
      cases h
      exact ⟨[], rfl, (List.append_nil _).symm, rfl⟩
    · rintro ⟨laid, hlaid, hcards, hnames⟩
      obtain rfl : laid = [] := by simpa using hlaid.symm
      obtain ⟨cards, cardNames⟩ := layout
      cases hnames
      rw [show cards = _ from hcards, List.append_nil]
  | cons s rest ih =>
    have hname : defineAll .duplicateCard names (nameEntries index (s :: rest)) =
        match defineCard names index s with
        | .error e => .error e
        | .ok names => defineAll .duplicateCard names (nameEntries (index + 1) rest) := by
      rw [nameEntries, defineCard]
      cases s.name <;> rfl
    rw [layCards, hname]
    cases defineCard names index s with
    | error e => simp
    | ok names' =>
      dsimp only
      cases hlabels : collectLabels [] 0 s.body with
      | error e =>
        have hlay : lay s = .error e := by rw [lay, hlabels]; rfl
        constructor
        · intro h
          cases h
        · rintro ⟨_ | ⟨c, laid⟩, hlaid, -⟩
          · cases hlaid
          · rw [List.map_cons, hlay] at hlaid
            cases hlaid
      | ok labels =>
        have hlay : lay s = .ok ⟨s.name, s.definedAt, labels, s.instructions⟩ := by
          rw [lay, hlabels]; rfl
        dsimp only
        rw [ih]
        constructor
        · rintro ⟨laid, hlaid, hcards, hnames⟩
          refine ⟨⟨s.name, s.definedAt, labels, s.instructions⟩ :: laid, ?_, ?_, hnames⟩
          · rw [List.map_cons, List.map_cons, hlay, hlaid]
          · rw [hcards, List.reverse_cons, List.append_assoc]; rfl
        · rintro ⟨laid, hlaid, hcards, hnames⟩
          obtain _ | ⟨c, laid⟩ := laid
          · cases hlaid
          · rw [List.map_cons, List.map_cons, hlay] at hlaid
            obtain ⟨hc, hrest⟩ := List.cons.inj hlaid
            cases hc
            refine ⟨laid, hrest, ?_, hnames⟩
            rw [hcards, List.reverse_cons, List.append_assoc]; rfl

/-- The layout of a source: its sections laid out, and the table of their names. -/
lemma ofLines_eq_ok_iff {lines : List NumberedLine} {layout : Layout} :
    ofLines lines = .ok layout ↔
      (Section.ofLines lines).map lay = layout.cards.map .ok ∧
        defineAll .duplicateCard [] (nameEntries 0 (Section.ofLines lines)) = .ok layout.cardNames := by
  rw [ofLines, layCards_eq_ok_iff]
  constructor
  · rintro ⟨laid, hlaid, hcards, hnames⟩
    rw [show layout.cards = laid from hcards]
    exact ⟨hlaid, hnames⟩
  · rintro ⟨hlaid, hnames⟩
    exact ⟨layout.cards, hlaid, rfl, hnames⟩

/-- A section can be laid out exactly if no label is there twice. -/
lemma exists_lay_iff {s : Section} :
    (∃ c, lay s = .ok c) ↔ (s.body.filterMap (·.line.label?)).Nodup := by
  have hlabels : (∃ c, lay s = .ok c) ↔ ∃ labels, collectLabels [] 0 s.body = .ok labels := by
    rw [lay]
    cases collectLabels [] 0 s.body with
    | error e => exact ⟨nofun, nofun⟩
    | ok labels => exact ⟨fun _ => ⟨labels, rfl⟩, fun _ => ⟨_, rfl⟩⟩
  rw [hlabels, collectLabels_eq, exists_defineAll_iff, filterMap_fst_labelEntries]
  exact and_iff_left fun name _ => rfl

/-- Lines can be laid out exactly if no label comes twice in a section and no two sections have one
name. -/
lemma exists_ofLines_iff {lines : List NumberedLine} :
    (∃ layout, ofLines lines = .ok layout) ↔
      (∀ s ∈ Section.ofLines lines, (s.body.filterMap (·.line.label?)).Nodup) ∧
        ((Section.ofLines lines).filterMap (·.name)).Nodup := by
  simp only [← exists_lay_iff, ← exists_map_ok_iff]
  have hnames : (∃ names, defineAll .duplicateCard [] (nameEntries 0 (Section.ofLines lines)) =
      .ok names) ↔ ((Section.ofLines lines).filterMap (·.name)).Nodup := by
    rw [exists_defineAll_iff, filterMap_fst_nameEntries]
    exact and_iff_left fun name _ => rfl
  rw [← hnames]
  constructor
  · rintro ⟨layout, h⟩
    obtain ⟨hlaid, hnames⟩ := ofLines_eq_ok_iff.1 h
    exact ⟨⟨_, hlaid⟩, _, hnames⟩
  · rintro ⟨⟨laid, hlaid⟩, names, hnames⟩
    exact ⟨⟨laid, names⟩, ofLines_eq_ok_iff.2 ⟨hlaid, hnames⟩⟩

/-- Lines that cannot be laid out repeat a name. -/
lemma fault_of_layCards {done : List CardLayout} {index : Nat} {names : SymbolTable}
    {sections : List Section} {e : SymbolError} (h : layCards done index names sections = .error e) :
    ∃ name first, e.fault = .duplicateLabel name first ∨ e.fault = .duplicateCard name first := by
  induction sections generalizing done index names with
  | nil => cases h
  | cons s rest ih =>
    rw [layCards] at h
    split at h
    · next hname =>
      cases h
      rw [defineCard] at hname
      split at hname
      · cases hname
      · next name _ =>
        obtain ⟨earlier, -, rfl⟩ := define_eq_error hname
        exact ⟨name, earlier.definedAt, .inr rfl⟩
    · split at h
      · next hlabels =>
        cases h
        rw [collectLabels_eq] at hlabels
        obtain ⟨name, first, hfault⟩ := fault_of_defineAll hlabels
        exact ⟨name, first, .inl hfault⟩
      · exact ih h

/-- A card name that was collected belongs to one section, and means its index. -/
lemma lookup_nameEntries {sections : List Section} {names : SymbolTable}
    (h : defineAll .duplicateCard [] (nameEntries 0 sections) = .ok names) {name : String}
    {symbol : Symbol} (hlookup : names.lookup name = some symbol) (j : Nat) :
    (∃ s, sections[j]? = some s ∧ s.name = some name) ↔ j = symbol.index := by
  obtain ⟨hnone, _⟩ | ⟨_, j₀, hj, honly⟩ := lookup_defineAll h hlookup
  · cases hnone
  · simp only [getElem?_nameEntries, Option.map_eq_some_iff] at hj honly
    obtain ⟨s, hs, e⟩ := hj
    obtain ⟨hname, rfl⟩ := Prod.mk.inj e
    dsimp only
    rw [Nat.zero_add]
    constructor
    · rintro ⟨s', hs', hname'⟩
      exact honly j _ ⟨s', hs', by rw [hname']⟩
    · rintro rfl
      exact ⟨s, hs, hname⟩

end Layout

end CardMachine
