import CardMachine.Proofs.LineByLine
import CardMachine.Proofs.Verdict
import Mathlib.Order.Bounds.Basic

/-!
# A layout is its source, cut up

`Partitions` says what a layout has of its lines, counted where they stand: every instruction once and in
order, a card for each heading and one more for what comes before the first, every label on its own
card and every name of a card, and nothing else. Lines cannot be laid out exactly if one of them repeats
a name, and then the first such line is told, with the line that has the name first (`TellsFirstRepeat`).

The lines before it can still be laid out, and so their tables hold what they name, each of it once.
It remains that a line does not move when more lines come (`Naming.at_append_iff`).
-/

namespace CardMachine

/-- The line at `k` is a label or an instruction, and no line before it opens a card. -/
def Unopened (lines : List NumberedLine) (k : Nat) : Prop :=
  ∃ l, lines[k]? = some l ∧ l.line ≠ .blank ∧ l.opensCard = false ∧ openedBefore lines k = 0

/-- The line that opened a card, and its name. -/
def CardLayout.heading (c : CardLayout) : Nat × Option String := (c.definedAt, c.name)

/-- The layout has all that the lines say, where they say it, and nothing else. -/
structure Partitions (lines : List NumberedLine) (layout : Layout) : Prop where
  instructions : layout.cards.flatMap (·.instructions) = lines.filterMap (·.placed?)
  headings (h : ∀ k, ¬ Unopened lines k) :
    layout.cards.map (·.heading) = lines.filterMap (·.heading?)
  /-- What has no heading before it is on a card without a name, opened by the first such line. -/
  unopened {k : Nat} {l : NumberedLine} (h : IsLeast {k | Unopened lines k} k)
    (hl : lines[k]? = some l) :
    layout.cards.map (·.heading) = (l.number, none) :: lines.filterMap (·.heading?)
  card {k : Nat} {l : NumberedLine} (hl : lines[k]? = some l) (hblank : l.line ≠ .blank) :
    cardOf lines k < layout.cards.length
  opened {k number : Nat} {name : Option String} (hk : lines[k]? = some ⟨number, .card name⟩) :
    layout.cards[cardOf lines k]?.map (·.heading) = some (number, name)
  instruction {c i : Nat} {placed : PlacedInstruction} :
    layout.cards[c]?.bind (·.instructions[i]?) = some placed ↔
      ∃ k label, lines[k]? = some ⟨placed.number, .instruction label placed.written⟩ ∧
        cardOf lines k = c ∧ positionOf lines k = i
  label {c : Nat} {card : CardLayout} (hc : layout.cards[c]? = some card) {name : String}
    {symbol : Symbol} :
    card.labels.lookup name = some symbol ↔
      ∃ k l, lines[k]? = some l ∧ l.line.label? = some name ∧ cardOf lines k = c ∧
        symbol = ⟨positionOf lines k, l.number⟩
  label_le {c : Nat} {card : CardLayout} (hc : layout.cards[c]? = some card) {name : String}
    {symbol : Symbol} (h : card.labels.lookup name = some symbol) :
    symbol.index ≤ card.instructions.length
  cardName {name : String} {symbol : Symbol} :
    layout.cardNames.lookup name = some symbol ↔
      ∃ k number, lines[k]? = some ⟨number, .card (some name)⟩ ∧ symbol = ⟨cardOf lines k, number⟩
  /-- No table has a name twice. -/
  sorted : Dict.Sorted layout.cardNames ∧ ∀ card ∈ layout.cards, Dict.Sorted card.labels

/-- What a line gives a name to: a position of a card, or a card. -/
inductive Naming
  | label (card : Nat) (name : String)
  | card (name : String)

namespace Naming

/-- The line at `k` gives the name. -/
def At (lines : List NumberedLine) : Naming → Nat → Prop
  | label c name => LabelledAt lines c name
  | card name => OpenedAt lines name

/-- The fault of giving the name again. -/
def duplicate : Naming → Nat → SymbolFault
  | label _ name => .duplicateLabel name
  | card name => .duplicateCard name

end Naming

/-- The line at `k` gives a name that an earlier line gives. -/
def Repeats (lines : List NumberedLine) (k : Nat) : Prop :=
  ∃ (n : Naming) (j : Nat), j < k ∧ n.At lines j ∧ n.At lines k

/-- The error tells the first line that repeats a name, and the first line that gives this name. -/
def TellsFirstRepeat (lines : List NumberedLine) (e : SymbolError) : Prop :=
  ∃ (n : Naming) (j k : Nat) (first l : NumberedLine),
    IsLeast {k | Repeats lines k} k ∧ n.At lines k ∧ IsLeast {j | n.At lines j} j ∧ j < k ∧
      lines[j]? = some first ∧ lines[k]? = some l ∧ e = ⟨n.duplicate first.number, l.number, 1⟩

/-- A member is in the front part with a property exactly if all up to it have the property. -/
lemma getElem?_takeWhile_iff {α : Type} {p : α → Bool} {l : List α} {k : Nat} {a : α} :
    (l.takeWhile p)[k]? = some a ↔ l[k]? = some a ∧ p a = true ∧ ∀ x ∈ l.take k, p x = true := by
  induction l generalizing k with
  | nil => simp
  | cons b rest ih =>
    cases hb : p b with
    | false =>
      rw [List.takeWhile_cons_of_neg (by simp [hb])]
      cases k with
      | zero =>
        refine ⟨nofun, fun ⟨h, ha, _⟩ => ?_⟩
        cases h
        cases hb.symm.trans ha
      | succ k =>
        refine ⟨nofun, fun ⟨_, _, hall⟩ => ?_⟩
        cases hb.symm.trans (hall b List.mem_cons_self)
    | true =>
      rw [List.takeWhile_cons_of_pos hb]
      cases k with
      | zero =>
        refine ⟨fun h => ?_, fun h => h.1⟩
        cases h
        exact ⟨rfl, hb, nofun⟩
      | succ k =>
        rw [List.getElem?_cons_succ, List.getElem?_cons_succ, List.take_succ_cons,
          List.forall_mem_cons, ih]
        exact and_congr_right fun _ => and_congr_right fun _ => (and_iff_right hb).symm

/-- A line before any heading is one of the first, and not blank. -/
lemma unopened_iff {lines : List NumberedLine} {k : Nat} :
    Unopened lines k ↔
      ∃ l, (lines.takeWhile (!·.opensCard))[k]? = some l ∧ l.line ≠ .blank := by
  refine exists_congr fun l => ?_
  rw [getElem?_takeWhile_iff, openedBefore, List.countP_eq_zero]
  simp only [Bool.not_eq_true', Bool.not_eq_true]
  constructor
  · rintro ⟨hl, hblank, hcard, hnone⟩
    exact ⟨⟨hl, hcard, hnone⟩, hblank⟩
  · rintro ⟨⟨hl, hcard, hnone⟩, hblank⟩
    exact ⟨hl, hblank, hcard, hnone⟩

namespace Section

/-- The cards are opened by the headings, and one before them by the first line that is not blank. -/
lemma map_heading_ofLines (lines : List NumberedLine) :
    (ofLines lines).map (fun s => (s.definedAt, s.name)) =
      (((lines.takeWhile (!·.opensCard)).find? (·.line ≠ .blank)).map
        fun l => (l.number, none)).toList ++ lines.filterMap (·.heading?) := by
  rw [← headings_eq, ← fst_split, ofLines]
  dsimp only
  cases (split lines).1.find? (·.line ≠ .blank) <;> rfl

/-- The first line that opens a card without a heading is found. -/
lemma find?_of_isLeast_unopened {lines : List NumberedLine} {k : Nat} {l : NumberedLine}
    (h : IsLeast {k | Unopened lines k} k) (hl : lines[k]? = some l) :
    (lines.takeWhile (!·.opensCard)).find? (·.line ≠ .blank) = some l := by
  obtain ⟨hk, hleast⟩ := h
  obtain ⟨l', hl', hblank⟩ := unopened_iff.1 hk
  cases hl.symm.trans (getElem?_takeWhile_iff.1 hl').1
  obtain ⟨hlt, hget⟩ := List.getElem?_eq_some_iff.1 hl'
  refine List.find?_eq_some_iff_getElem.2 ⟨by simpa using hblank, k, hlt, hget, fun j hj => ?_⟩
  by_contra hnonblank
  have hj' := List.getElem?_eq_getElem (hj.trans hlt)
  have hkj := hleast (unopened_iff.2 ⟨_, hj', by simpa using hnonblank⟩)
  omega

/-- Where no line opens a card without a heading, none is found. -/
lemma find?_of_forall_not_unopened {lines : List NumberedLine} (h : ∀ k, ¬ Unopened lines k) :
    (lines.takeWhile (!·.opensCard)).find? (·.line ≠ .blank) = none := by
  refine List.find?_eq_none.2 fun l hl hblank => ?_
  obtain ⟨k, hk⟩ := List.mem_iff_getElem?.1 hl
  exact h k (unopened_iff.2 ⟨l, hk, by simpa using hblank⟩)

/-- No instruction is lost between the sections. -/
lemma flatMap_instructions (lines : List NumberedLine) :
    (ofLines lines).flatMap (·.instructions) = lines.filterMap (·.placed?) := by
  have h := gatherLines_placed? (fun _ _ placed => some placed) lines
  have hlines : gatherLines (fun _ _ l => l.placed?.bind some) lines = lines.filterMap (·.placed?) := by
    rw [gatherLines]
    conv_rhs => rw [← List.zipIdx_map_fst 0 lines, List.filterMap_map]
    refine List.filterMap_congr fun p _ => ?_
    exact Option.bind_fun_some p.1.placed?
  have hsections : ((ofLines lines).zipIdx.flatMap fun p =>
      p.1.instructions.zipIdx.filterMap fun q => some q.1) =
        (ofLines lines).flatMap (·.instructions) := by
    conv_rhs => rw [← List.zipIdx_map_fst 0 (ofLines lines), List.flatMap_map]
    refine List.flatMap_congr fun p _ => ?_
    exact (congrFun List.filterMap_eq_map' _).trans (List.zipIdx_map_fst 0 p.1.instructions)
  rw [← hlines, ← hsections, h]

end Section

namespace Layout

variable {lines : List NumberedLine} {layout : Layout}

/-- The labels of a card are in order. -/
lemma sorted_labels_of_lay {s : Section} {c : CardLayout} (h : lay s = .ok c) :
    Dict.Sorted c.labels := by
  have hlabels := (lay_eq_ok h).1
  rw [collectLabels_eq] at hlabels
  exact sorted_of_defineAll hlabels .nil

/-- A layout that succeeds partitions its lines. -/
lemma partitions_of_ofLines (h : ofLines lines = .ok layout) : Partitions lines layout := by
  have hheadings : layout.cards.map (·.heading) =
      (Section.ofLines lines).map (fun s => (s.definedAt, s.name)) := by
    refine map_cards_eq h fun hlay => ?_
    obtain ⟨hname, hdefined⟩ := heading_of_lay hlay
    rw [CardLayout.heading, hname, hdefined]
  have hinstructions : layout.cards.map (·.instructions) =
      (Section.ofLines lines).map (·.instructions) :=
    map_cards_eq h fun hlay => (lay_eq_ok hlay).2
  constructor
  case instructions =>
    rw [← Section.flatMap_instructions, List.flatMap_def, List.flatMap_def, hinstructions]
  case headings =>
    intro hnone
    rw [hheadings, Section.map_heading_ofLines, Section.find?_of_forall_not_unopened hnone]
    rfl
  case unopened =>
    intro k l hleast hl
    rw [hheadings, Section.map_heading_ofLines, Section.find?_of_isLeast_unopened hleast hl]
    rfl
  case card =>
    intro k l hl hblank
    have hc := Section.cardOf_add_one hl hblank
    have hle : openedBefore lines (k + 1) ≤ openedBefore lines lines.length :=
      openedBefore_le lines (List.getElem?_eq_some_iff.1 hl).1
    rw [length_cards h, Section.length_ofLines]
    omega
  case opened =>
    intro k number name hk
    obtain ⟨s, hs, hname, hdefined⟩ := Section.exists_section_of_heading hk
    rw [← List.getElem?_map, hheadings, List.getElem?_map, hs, ← hname, ← hdefined]
    rfl
  case instruction =>
    intro c i placed
    rw [← Section.getElem?_instructions_iff, Option.bind_eq_some_iff]
    refine ⟨fun ⟨card, hc, hi⟩ => ?_, fun ⟨s, hs, hi⟩ => ?_⟩
    · obtain ⟨s, hs, hlay⟩ := exists_section h hc
      exact ⟨s, hs, (lay_eq_ok hlay).2 ▸ hi⟩
    · obtain ⟨card, hc, hlay⟩ := exists_card h hs
      exact ⟨card, hc, (lay_eq_ok hlay).2 ▸ hi⟩
  case label =>
    intro c card hc name symbol
    exact lookup_labels_eq_some_iff h hc
  case label_le =>
    intro c card hc name symbol hlookup
    exact index_le_of_label h hc hlookup
  case cardName =>
    intro name symbol
    exact lookup_cardNames_eq_some_iff h
  case sorted =>
    refine ⟨sorted_of_defineAll (ofLines_eq_ok_iff.1 h).2 .nil, fun card hcard => ?_⟩
    obtain ⟨n, hn⟩ := List.mem_iff_getElem?.1 hcard
    obtain ⟨s, -, hlay⟩ := exists_section h hn
    exact sorted_labels_of_lay hlay

end Layout

section append

variable {front back : List NumberedLine}

/-- The headings before a line do not depend on what follows it. -/
lemma openedBefore_append {k : Nat} (hk : k ≤ front.length) :
    openedBefore (front ++ back) k = openedBefore front k := by
  rw [openedBefore, List.take_append_of_le_length hk, openedBefore]

/-- Whether a card comes before the first heading is settled by the first line that is not blank. -/
lemma startsUnopened_append {l : NumberedLine} (hl : l ∈ front) (hblank : l.line ≠ .blank) :
    startsUnopened (front ++ back) = startsUnopened front := by
  rw [startsUnopened, startsUnopened, List.takeWhile_append]
  split
  · next hall =>
    have hpart : front.takeWhile (!·.opensCard) <+: front := List.takeWhile_prefix _
    have hsome : front.any (·.line ≠ .blank) = true :=
      List.any_eq_true.2 ⟨l, hl, by simpa using hblank⟩
    rw [hpart.eq_of_length hall, List.any_append, hsome]
    rfl
  · rfl

/-- The card of a line does not depend on what follows it. -/
lemma cardOf_append {k : Nat} {l : NumberedLine} (hl : front[k]? = some l) (hblank : l.line ≠ .blank) :
    cardOf (front ++ back) k = cardOf front k := by
  have hk : k + 1 ≤ front.length := (List.getElem?_eq_some_iff.1 hl).1
  rw [cardOf, cardOf, openedBefore_append hk, startsUnopened_append (List.mem_of_getElem? hl) hblank]

/-- A line after lines that say something goes to the last of their cards. -/
lemma cardOf_append_length {l first : NumberedLine} (hcard : l.opensCard = false)
    (hblank : l.line ≠ .blank) (hfirst : first ∈ front) (hnonblank : first.line ≠ .blank) :
    cardOf (front ++ l :: back) front.length + 1 = (Section.ofLines front).length := by
  have hl : (front ++ l :: back)[front.length]? = some l := by simp
  rw [Section.cardOf_add_one hl hblank, openedBefore_succ hl, hcard, openedBefore_append le_rfl,
    startsUnopened_append hfirst hnonblank, Section.length_ofLines]
  rfl

/-- A line with a label is not blank. -/
lemma line_ne_blank_of_label? {l : NumberedLine} {name : String} (h : l.line.label? = some name) :
    l.line ≠ .blank := by
  intro e
  rw [e] at h
  cases h

/-- Whether a line gives a name does not depend on what follows it. -/
lemma Naming.at_append_iff {n : Naming} {k : Nat} (hk : k < front.length) :
    n.At (front ++ back) k ↔ n.At front k := by
  have hline : (front ++ back)[k]? = front[k]? := List.getElem?_append_left hk
  cases n with
  | card name =>
    change OpenedAt _ _ _ ↔ OpenedAt _ _ _
    rw [OpenedAt, OpenedAt, hline]
  | label c name =>
    change LabelledAt _ _ _ _ ↔ LabelledAt _ _ _ _
    rw [labelledAt_iff, labelledAt_iff, hline, and_comm, and_comm (a := cardOf front k = c)]
    refine and_congr_right fun ⟨l, hl, hname⟩ => ?_
    rw [cardOf_append hl (line_ne_blank_of_label? hname)]

end append

/-- Where names are given once, two lines that give one name are one line. -/
lemma NamesOnce.eq_of_at {lines : List NumberedLine} (once : NamesOnce lines) {n : Naming} {j k : Nat}
    (hj : n.At lines j) (hk : n.At lines k) : j = k := by
  cases n with
  | label c name => exact once.label hj hk
  | card name => exact once.card hj hk

/-- Where names are given once, no line repeats one. -/
lemma NamesOnce.not_repeats {lines : List NumberedLine} (once : NamesOnce lines) (k : Nat) :
    ¬ Repeats lines k := by
  intro ⟨n, j, hlt, hj, hk⟩
  exact Nat.ne_of_lt hlt (once.eq_of_at hj hk)

/-- A line that cannot be put on a card has a label that is there already. -/
lemma CardLayout.addLines_eq_error {c : CardLayout} {l : NumberedLine} {e : SymbolError}
    (h : c.addLines [l] = .error e) :
    ∃ name earlier, l.line.label? = some name ∧ c.labels.lookup name = some earlier ∧
      e = ⟨.duplicateLabel name earlier.definedAt, l.number, 1⟩ := by
  rw [addLines, Layout.collectLabels] at h
  cases hname : l.line.label? with
  | none => rw [hname] at h; cases h
  | some name =>
    rw [hname] at h
    dsimp only at h
    cases hdefine : Layout.define c.labels name ⟨c.instructions.length, l.number⟩ .duplicateLabel with
    | ok labels => rw [hdefine] at h; cases h
    | error e' =>
      rw [hdefine] at h
      cases h
      obtain ⟨earlier, hearlier, rfl⟩ := Layout.define_eq_error hdefine
      exact ⟨name, earlier, rfl, hearlier, rfl⟩

namespace Layout

/-- A line that the open card refuses is refused by the last card there is. -/
lemma exists_last_of_addToLast_error {layout : Layout} {l : NumberedLine} {e : SymbolError}
    (h : layout.addToLast l = .error e) :
    ∃ c, layout.cards[layout.cards.length - 1]? = some c ∧ c.addLines [l] = .error e := by
  rw [addToLast] at h
  cases hadd : (layout.cards.getLast?.getD (.opened none l.number)).addLines [l] with
  | ok c => rw [hadd] at h; cases h
  | error e' =>
    rw [hadd] at h
    cases h
    cases hlast : layout.cards.getLast? with
    | some c =>
      rw [hlast] at hadd
      exact ⟨c, List.getLast?_eq_getElem? ▸ hlast, hadd⟩
    | none =>
      -- a card with nothing on it refuses no label
      rw [hlast] at hadd
      obtain ⟨name, earlier, -, hearlier, -⟩ := CardLayout.addLines_eq_error hadd
      cases hearlier

variable {front : List NumberedLine} {layout : Layout} (hlayout : ofLines front = .ok layout)
include hlayout

/-- A line that cannot be added gives a name that the lines before it give. -/
lemma exists_at_of_addLine_error {l : NumberedLine} {e : SymbolError} (h : layout.addLine l = .error e)
    (back : List NumberedLine) :
    ∃ (n : Naming) (j : Nat) (first : NumberedLine), n.At front j ∧ front[j]? = some first ∧
      n.At (front ++ l :: back) front.length ∧ e = ⟨n.duplicate first.number, l.number, 1⟩ := by
  have hl : (front ++ l :: back)[front.length]? = some l := by simp
  cases hheading : l.heading? with
  | some heading =>
    obtain ⟨number, name⟩ := heading
    rw [addLine_of_heading? hheading] at h
    obtain rfl := NumberedLine.heading?_eq_some_iff.1 hheading
    cases name with
    | none => cases h
    | some name =>
      change Except.map _ (define layout.cardNames name ⟨layout.cards.length, number⟩ _) = _ at h
      cases hdefine : define layout.cardNames name ⟨layout.cards.length, number⟩ .duplicateCard with
      | ok names => rw [hdefine] at h; cases h
      | error e' =>
        rw [hdefine] at h
        cases h
        obtain ⟨earlier, hearlier, rfl⟩ := define_eq_error hdefine
        obtain ⟨j, first, hj, rfl⟩ := (lookup_cardNames_eq_some_iff hlayout).1 hearlier
        exact ⟨.card name, j, _, ⟨first, hj⟩, hj, ⟨number, hl⟩, rfl⟩
  | none =>
    have hcard := NumberedLine.opensCard_of_heading?_eq_none hheading
    by_cases hblank : l.line = .blank
    · rw [addLine_of_blank hblank] at h
      cases h
    · rw [addLine_of_plain hcard hblank] at h
      obtain ⟨c, hc, he⟩ := exists_last_of_addToLast_error h
      obtain ⟨name, earlier, hname, hearlier, rfl⟩ := CardLayout.addLines_eq_error he
      obtain ⟨j, first, hfirst, hlabel, hj, rfl⟩ := (lookup_labels_eq_some_iff hlayout hc).1 hearlier
      refine ⟨.label (cardOf front j) name, j, first, ?_, hfirst, ?_, rfl⟩
      · exact labelledAt_iff.2 ⟨rfl, first, hfirst, hlabel⟩
      · -- the labels of the last card are those before the line on its card
        refine labelledAt_iff.2 ⟨?_, l, hl, hname⟩
        have hlast : cardOf (front ++ l :: back) front.length + 1 = (Section.ofLines front).length :=
          cardOf_append_length hcard hblank (List.mem_of_getElem? hfirst)
            (line_ne_blank_of_label? hlabel)
        rw [← length_cards hlayout] at hlast
        omega

end Layout

/-- A layout that fails tells the first name that is given again. -/
lemma tellsFirstRepeat_of_ofLines {lines : List NumberedLine} {e : SymbolError}
    (h : Layout.ofLines lines = .error e) : TellsFirstRepeat lines e := by
  obtain ⟨front, l, back, layout, rfl, hfront, he⟩ := Layout.exists_of_ofLines_error h
  obtain ⟨n, j, first, hj, hfirst, hk, rfl⟩ := Layout.exists_at_of_addLine_error hfront he back
  have once := namesOnce_iff.2 ⟨layout, hfront⟩
  have hlt : j < front.length := (List.getElem?_eq_some_iff.1 hfirst).1
  have hj' : n.At (front ++ l :: back) j := (Naming.at_append_iff hlt).2 hj
  refine ⟨n, j, front.length, first, l, ⟨⟨n, j, hlt, hj', hk⟩, ?_⟩, hk, ⟨hj', ?_⟩, hlt, ?_, ?_, rfl⟩
  · -- up to here no name comes twice
    rintro k ⟨n', j', hjk, hn, hn'⟩
    by_contra hkl
    have hkl' : k < front.length := Nat.not_le.1 hkl
    exact Nat.ne_of_lt hjk (once.eq_of_at ((Naming.at_append_iff (hjk.trans hkl')).1 hn)
      ((Naming.at_append_iff hkl').1 hn'))
  · intro j' hj''
    by_contra hlt'
    have hjl : j' < front.length := (Nat.not_le.1 hlt').trans hlt
    exact hlt' (once.eq_of_at hj ((Naming.at_append_iff hjl).1 hj'')).le
  · rw [List.getElem?_append_left hlt, hfirst]
  · simp

/-- Lines that can be laid out are the layout, cut up. Lines cannot be laid out exactly if one of them
repeats a name, and then the first such line is told. -/
theorem ofLines_partitions_or_tells_first_repeat (lines : List NumberedLine) :
    (∀ layout, Layout.ofLines lines = .ok layout → Partitions lines layout) ∧
    ((∃ e, Layout.ofLines lines = .error e) ↔ ∃ k, Repeats lines k) ∧
    ∀ e, Layout.ofLines lines = .error e → TellsFirstRepeat lines e := by
  refine ⟨fun layout => Layout.partitions_of_ofLines, ⟨?_, ?_⟩, fun e => tellsFirstRepeat_of_ofLines⟩
  · rintro ⟨e, h⟩
    obtain ⟨_, _, k, _, _, hleast, -⟩ := tellsFirstRepeat_of_ofLines h
    exact ⟨k, hleast.1⟩
  · rintro ⟨k, hk⟩
    cases h : Layout.ofLines lines with
    | error e => exact ⟨e, rfl⟩
    | ok layout => exact absurd hk ((namesOnce_iff.2 ⟨layout, h⟩).not_repeats k)

/-- Two cards with the same label, the first of them without a heading. -/
def twoTops : List NumberedLine :=
  [⟨2, .label "top"⟩, ⟨3, .instruction none ⟨none, .lda, .literal 1, 5⟩⟩, ⟨5, .card (some "dock")⟩,
    ⟨6, .blank⟩, ⟨7, .instruction (some "top") ⟨none, .jmp, .symbol "top", 10⟩⟩]

/-- `twoTops` can be laid out, and no longer with a third label of that name. -/
theorem twoTops_partitioned :
    (∃ layout, Layout.ofLines twoTops = .ok layout ∧ Partitions twoTops layout) ∧
    ∃ e, Layout.ofLines (twoTops ++ [⟨9, .label "top"⟩]) = .error e ∧
      e = ⟨.duplicateLabel "top" 7, 9, 1⟩ ∧ TellsFirstRepeat (twoTops ++ [⟨9, .label "top"⟩]) e := by
  have hlayout : Layout.ofLines twoTops = .ok
      ⟨[⟨none, 2, [("top", ⟨0, 2⟩)], [⟨⟨none, .lda, .literal 1, 5⟩, 3⟩]⟩,
        ⟨some "dock", 5, [("top", ⟨0, 7⟩)], [⟨⟨none, .jmp, .symbol "top", 10⟩, 7⟩]⟩],
        [("dock", ⟨1, 5⟩)]⟩ := by decide +kernel
  have herror : Layout.ofLines (twoTops ++ [⟨9, .label "top"⟩]) =
      .error ⟨.duplicateLabel "top" 7, 9, 1⟩ := by decide +kernel
  exact ⟨⟨_, hlayout, (ofLines_partitions_or_tells_first_repeat _).1 _ hlayout⟩,
    _, herror, rfl, (ofLines_partitions_or_tells_first_repeat _).2.2 _ herror⟩

end CardMachine
