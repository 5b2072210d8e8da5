import CardMachine.Proofs.Location
import CardMachine.Proofs.Outline
import CardMachine.Proofs.Reassembly

/-!
# The order of errors

Each stage of an assembly goes through the source from top to bottom, and so its errors come in the
order of their lines (`InOrder`). One error is out of turn: the first card too many is told before the
instructions too many, and those may be on earlier cards. `errors_in_source_order` says that this is the
only way for errors to be out of order, and that the rest of them is in order even then.

The numbers of lines grow with their positions (`Reads.number_lt`), so what is shown of an error is the
position of its line. For what is told card by card, that is the position among the cards
(`lt_of_cardOf_lt`, `lt_of_heading`).
-/

namespace CardMachine

/-- What comes of the members of a list one by one comes in their order. -/
lemma OneEach.pairwise {β : Type} {P : Nat → β → Prop} {xs : List β} {R : β → β → Prop}
    (h : OneEach P xs) (hR : ∀ j k x y, j < k → P j x → P k y → R x y) : xs.Pairwise R := by
  obtain ⟨ks, hks, -, hall⟩ := h
  have hlength := hall.length_eq
  rw [List.pairwise_iff_getElem] at hks ⊢
  intro i j hi hj hlt
  have hi' : i < ks.length := by omega
  have hj' : j < ks.length := by omega
  exact hR ks[i] ks[j] _ _ (hks i j hi' hj' hlt) (hall.get hi' hi) (hall.get hj' hj)

section positions

variable {lines : List NumberedLine}

/-- A line on an earlier card is an earlier line. -/
lemma lt_of_cardOf_lt {j k : Nat} (h : cardOf lines j < cardOf lines k) : j < k := by
  by_contra hle
  have hopened : openedBefore lines (k + 1) ≤ openedBefore lines (j + 1) :=
    openedBefore_le lines (by omega)
  rw [cardOf, cardOf] at h
  omega

/-- An instruction on the card that a line opens, or on a later one, comes after this line. -/
lemma lt_of_heading {q k number number' : Nat} {name label : Option String}
    {written : WrittenInstruction} (hq : lines[q]? = some ⟨number, .card name⟩)
    (hk : lines[k]? = some ⟨number', .instruction label written⟩)
    (h : cardOf lines q ≤ cardOf lines k) : q < k := by
  by_contra hle
  have hne : k ≠ q := by
    rintro rfl
    cases hq.symm.trans hk
  have hopened : openedBefore lines (k + 1) ≤ openedBefore lines q :=
    openedBefore_le lines (by omega)
  have hcard := Section.cardOf_add_one hk nofun
  have hheading := Section.cardOf_heading hq
  omega

end positions

namespace Assembly

/-- The line of an error is not after the line of another. -/
def Error.UpTo (e e' : Error) : Prop :=
  ∀ place ∈ e.location, ∀ place' ∈ e'.location, place.line ≤ place'.line

/-- All errors have a place, and they come in the order of their lines. -/
structure InOrder (errors : List Error) : Prop where
  placed {e : Error} (he : e ∈ errors) : ∃ place, e.location = some place
  ordered : errors.Pairwise Error.UpTo

/-- Errors with a place are in the order of their lines. -/
lemma Error.upTo_of_le {fault fault' : Fault} {place place' : SourceLocation}
    (h : place.line ≤ place'.line) :
    UpTo ⟨fault, some place⟩ ⟨fault', some place'⟩ := by
  rintro _ ⟨⟩ _ ⟨⟩
  exact h

section stages

variable {path content : String} {j k : Nat} {e e' : Error}

/-- Lines that cannot be read are told of in their order. -/
lemma Unread.upTo (h : Unread path (Source.extract path content) j e)
    (h' : Unread path (Source.extract path content) k e') (hlt : j < k) : e.UpTo e' := by
  obtain ⟨l, failure, hl, -, rfl⟩ := h
  obtain ⟨l', failure', hl', -, rfl⟩ := h'
  exact Error.upTo_of_le (Source.number_lt hl hl' hlt).le

variable {lines : List NumberedLine} (hread : Reads path content lines)
include hread

/-- Operands that cannot be resolved are told of in the order of their lines. -/
lemma Unresolved.upTo (h : Unresolved path lines j e) (h' : Unresolved path lines k e')
    (hlt : j < k) : e.UpTo e' := by
  obtain ⟨number, label, written, name, hl, -, -, rfl⟩ := h
  obtain ⟨number', label', written', name', hl', -, -, rfl⟩ := h'
  exact Error.upTo_of_le (hread.number_lt hl hl' hlt).le

end stages

/-- What is told of the cards with too many instructions. -/
def longCards (file : String) (layout : Layout) : List Error :=
  layout.cards.zipIdx.filterMap fun p => p.1.instructions[addressableLimit]?.map fun placed =>
    ⟨.unaddressableInstruction p.2 addressableLimit, some ⟨file, placed.number, 1⟩⟩

/-- The first card too many is told before any of the instructions. -/
lemma unaddressable_cases (file : String) (layout : Layout) :
    (layout.cards[256]? = none ∧ unaddressable file layout = longCards file layout) ∨
    ∃ c, layout.cards[256]? = some c ∧
      unaddressable file layout =
        ⟨.unaddressableCard 256, some ⟨file, c.definedAt, 1⟩⟩ :: longCards file layout := by
  rw [unaddressable_eq, beyond, show addressableLimit = 256 from rfl]
  cases h : layout.cards[256]? with
  | none => exact .inl ⟨rfl, rfl⟩
  | some c => exact .inr ⟨c, rfl, rfl⟩

section beyond

variable {path content : String} {lines : List NumberedLine} {layout : Layout}
  (hlayout : Layout.ofLines lines = .ok layout)
include hlayout

/-- The instruction at position 256 of a card is on a line of the source. -/
lemma exists_line_of_longCard {n : Nat} {c : CardLayout} {placed : PlacedInstruction}
    (hc : layout.cards[n]? = some c) (hplaced : c.instructions[256]? = some placed) :
    ∃ k label, lines[k]? = some ⟨placed.number, .instruction label placed.written⟩ ∧
      cardOf lines k = n := by
  have hbind : layout.cards[n]?.bind (·.instructions[256]?) = some placed := by
    rw [hc]
    exact hplaced
  obtain ⟨k, label, hk, hcard, -⟩ := (Layout.partitions_of_ofLines hlayout).instruction.1 hbind
  exact ⟨k, label, hk, hcard⟩

/-- A card that is too long is told of at the line of its instruction 256. -/
lemma exists_line_of_mem_longCards {e : Error} (he : e ∈ longCards path layout) :
    ∃ k number label written, lines[k]? = some ⟨number, .instruction label written⟩ ∧
      e = ⟨.unaddressableInstruction (cardOf lines k) 256, some ⟨path, number, 1⟩⟩ := by
  obtain ⟨⟨c, n⟩, hc, he⟩ := List.mem_filterMap.1 he
  obtain ⟨placed, hplaced, rfl⟩ := Option.map_eq_some_iff.1 he
  obtain ⟨k, label, hk, rfl⟩ := exists_line_of_longCard hlayout
    (List.mk_mem_zipIdx_iff_getElem?.1 hc) hplaced
  exact ⟨k, placed.number, label, placed.written, hk, rfl⟩

/-- Card 256 is opened by a heading. -/
lemma exists_heading_of_card {c : CardLayout} (hc : layout.cards[256]? = some c) :
    ∃ q, lines[q]? = some ⟨c.definedAt, .card c.name⟩ ∧ cardOf lines q = 256 := by
  obtain ⟨s, hs, hlay⟩ := Layout.exists_section hlayout hc
  obtain ⟨hname, hdefined⟩ := Layout.heading_of_lay hlay
  rw [hname, hdefined]
  exact (Section.exists_heading_or_first hs).resolve_left fun h => absurd h.1 (by decide)

variable (hread : Reads path content lines)
include hread

/-- Cards that are too long are told of in the order of their lines. -/
lemma pairwise_longCards : (longCards path layout).Pairwise Error.UpTo := by
  rw [longCards, List.pairwise_filterMap]
  refine (pairwise_snd_zipIdx layout.cards).imp_of_mem fun {p p'} hp hp' hlt e he e' he' => ?_
  obtain ⟨placed, hplaced, rfl⟩ := Option.map_eq_some_iff.1 he
  obtain ⟨placed', hplaced', rfl⟩ := Option.map_eq_some_iff.1 he'
  obtain ⟨k, label, hk, hcard⟩ := exists_line_of_longCard hlayout
    (List.mk_mem_zipIdx_iff_getElem?.1 hp) hplaced
  obtain ⟨k', label', hk', hcard'⟩ := exists_line_of_longCard hlayout
    (List.mk_mem_zipIdx_iff_getElem?.1 hp') hplaced'
  have hpositions : k < k' := lt_of_cardOf_lt (by rw [hcard, hcard']; exact hlt)
  exact Error.upTo_of_le (hread.number_lt hk hk' hpositions).le

/-- The first card too many is told in its turn exactly if none of the cards before it is too long. -/
lemma upTo_longCards_iff {c : CardLayout} (hc : layout.cards[256]? = some c) :
    (∀ e ∈ longCards path layout,
      Error.UpTo ⟨.unaddressableCard 256, some ⟨path, c.definedAt, 1⟩⟩ e) ↔
      ¬∃ e ∈ longCards path layout, ∃ n < 256, e.fault = .unaddressableInstruction n 256 := by
  obtain ⟨q, hq, hcard⟩ := exists_heading_of_card hlayout hc
  constructor
  · rintro hall ⟨e, he, n, hn, hfault⟩
    obtain ⟨k, number, label, written, hk, rfl⟩ := exists_line_of_mem_longCards hlayout he
    cases hfault
    have hle : c.definedAt ≤ number := hall _ he _ rfl _ rfl
    have hpositions : k < q := lt_of_cardOf_lt (hcard ▸ hn)
    have hlt : number < c.definedAt := hread.number_lt hk hq hpositions
    omega
  · intro hnone e he
    obtain ⟨k, number, label, written, hk, rfl⟩ := exists_line_of_mem_longCards hlayout he
    have hlater : 256 ≤ cardOf lines k := by
      by_contra hlt
      exact hnone ⟨_, he, cardOf lines k, Nat.not_le.1 hlt, rfl⟩
    have hpositions : q < k := lt_of_heading hq hk (by omega)
    exact Error.upTo_of_le (hread.number_lt hq hk hpositions).le

end beyond

/-- There is a card too many, and one of the cards before it is too long. -/
def OutOfTurn (errors : List Error) : Prop :=
  (∃ e ∈ errors, e.fault = .unaddressableCard 256) ∧
    ∃ e ∈ errors, ∃ c < 256, e.fault = .unaddressableInstruction c 256

section errors

variable {path content : String} {errors : List Error}

/-- The check of the size keeps to the order of the lines, the card that is one too many apart. -/
lemma pairwise_unaddressable {lines : List NumberedLine} {layout : Layout}
    (hlayout : Layout.ofLines lines = .ok layout) (hread : Reads path content lines) :
    ((unaddressable path layout).Pairwise Error.UpTo ↔ ¬OutOfTurn (unaddressable path layout)) ∧
      (unaddressable path layout).tail.Pairwise Error.UpTo := by
  have hlong := pairwise_longCards hlayout hread
  have hinstruction {e : Error} (he : e ∈ longCards path layout) :
      e.fault ≠ .unaddressableCard 256 := by
    obtain ⟨k, number, label, written, -, rfl⟩ := exists_line_of_mem_longCards hlayout he
    nofun
  rcases unaddressable_cases path layout with ⟨-, hall⟩ | ⟨c, hc, hall⟩
  · rw [hall]
    refine ⟨iff_of_true hlong ?_, hlong.tail⟩
    rintro ⟨⟨e, he, hfault⟩, -⟩
    exact hinstruction he hfault
  · rw [hall, List.pairwise_cons, and_iff_left hlong, upTo_longCards_iff hlayout hread hc]
    refine ⟨not_congr ⟨?_, ?_⟩, hlong⟩
    · rintro ⟨e, he, hfault⟩
      exact ⟨⟨_, List.mem_cons_self, rfl⟩, e, List.mem_cons_of_mem _ he, hfault⟩
    · rintro ⟨-, e, he, n, hn, hfault⟩
      rcases List.mem_cons.1 he with rfl | he
      · cases hfault
      · exact ⟨e, he, n, hn, hfault⟩

/-- Errors that are in order and say nothing of a card too many. -/
lemma pairwise_of_forall_ne (hpairwise : errors.Pairwise Error.UpTo)
    (hne : ∀ e ∈ errors, e.fault ≠ .unaddressableCard 256) :
    (errors.Pairwise Error.UpTo ↔ ¬OutOfTurn errors) ∧ errors.tail.Pairwise Error.UpTo := by
  refine ⟨iff_of_true hpairwise ?_, hpairwise.tail⟩
  rintro ⟨⟨e, he, hfault⟩, -⟩
  exact hne e he hfault

/-- Whatever the stage that fails, its errors are in the order of their lines, the first one apart.
-/
lemma Stops.pairwise (h : Stops path content errors) :
    (errors.Pairwise Error.UpTo ↔ ¬OutOfTurn errors) ∧ errors.tail.Pairwise Error.UpTo := by
  cases h with
  | unread h =>
    have each := oneEach_unread h
    refine pairwise_of_forall_ne (each.pairwise fun _ _ _ _ hlt h h' => h.upTo h' hlt) fun e he => ?_
    obtain ⟨k, _, _, -, -, rfl⟩ := each.exists_of_mem he
    nofun
  | repeated hread _ herrors =>
    subst herrors
    refine pairwise_of_forall_ne (List.pairwise_singleton _ _) fun e he => ?_
    rw [List.mem_singleton.1 he]
    nofun
  | beyond hread hlayout _ herrors =>
    subst herrors
    exact pairwise_unaddressable hlayout hread
  | unresolved hread hlayout hreach h =>
    have each := oneEach_unresolved hlayout hreach h
    refine pairwise_of_forall_ne (each.pairwise fun _ _ _ _ hlt h h' => h.upTo hread h' hlt)
      fun e he => ?_
    obtain ⟨k, _, _, _, _, -, -, -, rfl⟩ := each.exists_of_mem he
    nofun

/-- Errors come in the order of their lines, but for the first card too many if a card before it is too
long. The other errors are in order even then. -/
theorem errors_in_source_order (h : ofSource path content = .error errors) :
    (InOrder errors ↔ ¬OutOfTurn errors) ∧ InOrder errors.tail := by
  have stops := stops_of_ofSource h
  obtain ⟨hpairwise, htail⟩ := stops.pairwise
  have hplaced {e : Error} (he : e ∈ errors) : ∃ place, e.location = some place := by
    obtain ⟨place, hlocation, -⟩ := stops.inPlace he
    exact ⟨place, hlocation⟩
  refine ⟨⟨fun order => ?_, fun hturn => ⟨hplaced, ?_⟩⟩, fun he => ?_, htail⟩
  · exact hpairwise.1 order.ordered
  · exact hpairwise.2 hturn
  · exact hplaced (List.mem_of_mem_tail he)

end errors

/-- Three lines that cannot be read, among others. -/
def brokenLines : String := "# Notes\n```cards\nLDA\nADD 1\nADD 1 2\n```\n\n```cards\n.deck\n```\n"

/-- The errors of `brokenLines` are in order. -/
theorem brokenLines_in_order :
    ∃ errors, ofSource "broken.md" brokenLines = .error errors ∧ InOrder errors ∧
      errors.map (·.location.map (·.line)) = [some 3, some 5, some 9] := by
  have h : ofSource "broken.md" brokenLines = .error
      [⟨.line .missingOperand, some ⟨"broken.md", 3, 4⟩⟩,
        ⟨.line (.unexpectedToken "2"), some ⟨"broken.md", 5, 7⟩⟩,
        ⟨.line (.unknownDirective "deck"), some ⟨"broken.md", 9, 1⟩⟩] := by decide +kernel
  refine ⟨_, h, (errors_in_source_order h).1.2 ?_, rfl⟩
  rintro ⟨⟨e, he, hfault⟩, -⟩
  simp only [List.mem_cons, List.not_mem_nil, or_false] at he
  rcases he with rfl | rfl | rfl <;> cases hfault

/-- A plain file of lines that can be read is read as these lines, under their numbers. -/
lemma reads_of_plain {path : String} (hpath : Source.isLiterate path = false)
    {source : List (String × Line)}
    (htext : ∀ p ∈ source, p.1 ≠ "" ∧ '\n' ∉ p.1.toList ∧ '\r' ∉ p.1.toList)
    (hparse : ∀ p ∈ source, Line.parse p.1 = .ok p.2) :
    Reads path (String.join ((source.map Prod.fst).map (· ++ "\n")))
      (source.zipIdx.map fun p => ⟨p.2 + 1, p.1.2⟩) := by
  have hlines : Text.lines (String.join ((source.map Prod.fst).map (· ++ "\n"))) =
      source.map Prod.fst := by
    refine IsText.lines_eq (.inl rfl) fun line hline => ?_
    obtain ⟨p, hp, rfl⟩ := List.mem_map.1 hline
    exact htext p hp
  rw [Reads, Source.extract, hpath, if_neg Bool.false_ne_true, Source.numbered_eq, hlines,
    List.zipIdx_map, List.map_map, List.map_map, List.map_map]
  refine List.map_congr_left fun p hp => ?_
  have hline := hparse p.1 (List.fst_mem_of_mem_zipIdx hp)
  simp only [Function.comp_apply, Prod.map_fst, Prod.map_snd, id_eq, readLine, hline]

/-- A card of 257 instructions, and 256 cards more. -/
def longThenMany : List (String × Line) :=
  List.replicate 257 ("ADD 1", .instruction none ⟨none, .add, .literal 1, 5⟩) ++
    List.replicate 256 (".card", .card none)

/-- The instruction too many on the first card of `longThenMany` is told after the card too many, though
it stands before it. -/
theorem longThenMany_out_of_order :
    ∃ errors, ofSource "long.cards" (String.join ((longThenMany.map Prod.fst).map (· ++ "\n"))) =
        .error errors ∧ ¬InOrder errors ∧
      errors.map (·.location.map (·.line)) = [some 513, some 257] := by
  have hmem {p : String × Line} (hp : p ∈ longThenMany) :
      p = ("ADD 1", .instruction none ⟨none, .add, .literal 1, 5⟩) ∨ p = (".card", .card none) := by
    rw [longThenMany, List.mem_append, List.mem_replicate, List.mem_replicate] at hp
    exact hp.imp And.right And.right
  have hread := @reads_of_plain "long.cards" (by decide +kernel) longThenMany
    (fun p hp => by rcases hmem hp with rfl | rfl <;> decide)
    (fun p hp => by rcases hmem hp with rfl | rfl <;> decide +kernel)
  have hstage : ofRead "long.cards" (longThenMany.zipIdx.map fun p => ⟨p.2 + 1, p.1.2⟩) = .error
      [⟨.unaddressableCard 256, some ⟨"long.cards", 513, 1⟩⟩,
        ⟨.unaddressableInstruction 0 256, some ⟨"long.cards", 257, 1⟩⟩] := by decide +kernel
  refine ⟨_, (ofSource_of_reads hread).trans hstage, fun order => ?_, rfl⟩
  have hle : 513 ≤ 257 := (List.pairwise_pair.1 order.ordered) _ rfl _ rfl
  omega

end Assembly

end CardMachine
