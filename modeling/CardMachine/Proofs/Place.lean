import CardMachine.Proofs.Layout
import Mathlib.Data.List.DropRight

/-!
# Where a line stands

Lines are counted here without cutting them up: the card of a line is the number of lines that opened
a card before it (`cardOf`), and its position is the number of instructions since the last of them
(`positionOf`). The sections of a source are cut to that count. Each stretch of lines between two
headings is a run of consecutive lines (`bodies_eq_append`), and its lines are those with its number of
headings before them (`exists_spans`). So the card of a line is the section it is in
(`exists_section_cardOf`), and a section with a name is the card of the line that opens it
(`exists_name_iff`).
-/

namespace CardMachine

section

variable {α β : Type} {l : List α}

/-- What an element is mapped to stands after what came of the elements before it. -/
lemma getElem?_filterMap_iff {f : α → Option β} {m : Nat} {y : β} :
    (l.filterMap f)[m]? = some y ↔
      ∃ j x, l[j]? = some x ∧ f x = some y ∧ (l.take j).countP (fun a => (f a).isSome) = m := by
  induction l generalizing m with
  | nil => simp
  | cons a rest ih =>
    rw [← Nat.or_exists_add_one]
    cases hf : f a with
    | none => simp [hf, ih]
    | some b => cases m <;> simp [hf, ih]

/-- The last part with a property is found from the end. -/
lemma rtakeWhile_append {p : α → Bool} {front back : List α} (hback : ∀ x ∈ back, p x = true)
    (hfront : ∀ x, front.getLast? = some x → p x = false) : (front ++ back).rtakeWhile p = back := by
  have hnil : front.rtakeWhile p = [] := by
    refine List.rtakeWhile_eq_nil_iff.2 fun hne => ?_
    simp [hfront _ (List.getLast?_eq_some_getLast hne)]
  induction back using List.reverseRecOn with
  | nil => rw [List.append_nil, hnil]
  | append_singleton back x ih =>
    have hx : p x = true := hback x (by simp)
    rw [← List.append_assoc, List.rtakeWhile_concat_pos p _ x hx,
      ih fun y hy => hback y (List.mem_append_left _ hy)]

end

/-- Does a line open a card? -/
def NumberedLine.opensCard (l : NumberedLine) : Bool :=
  match l.line with
  | .card _ => true
  | _ => false

/-- The number of a line that opens a card, and the name it gives. -/
def NumberedLine.heading? (l : NumberedLine) : Option (Nat × Option String) :=
  match l.line with
  | .card name => some (l.number, name)
  | _ => none

/-- The lines with a heading are those that open a card. -/
lemma NumberedLine.isSome_heading? (l : NumberedLine) : l.heading?.isSome = l.opensCard := by
  rw [heading?, opensCard]
  cases l.line <;> rfl

/-- A heading is a line that opens a card, with its name. -/
lemma NumberedLine.heading?_eq_some_iff {l : NumberedLine} {number : Nat} {name : Option String} :
    l.heading? = some (number, name) ↔ l = ⟨number, .card name⟩ := by
  obtain ⟨number', line⟩ := l
  cases line <;> simp [heading?]

lemma NumberedLine.opensCard_of_heading?_eq_none {l : NumberedLine} (h : l.heading? = none) :
    l.opensCard = false := by
  rw [← isSome_heading?, h]; rfl

lemma NumberedLine.opensCard_of_heading?_eq_some {l : NumberedLine} {heading : Nat × Option String}
    (h : l.heading? = some heading) : l.opensCard = true := by
  rw [← isSome_heading?, h]; rfl

/-- Is there anything before the first line that opens a card? It is a card of its own then. -/
def startsUnopened (lines : List NumberedLine) : Bool :=
  (lines.takeWhile (!·.opensCard)).any (·.line ≠ .blank)

/-- The number of lines before the line at `k` that open a card. -/
def openedBefore (lines : List NumberedLine) (k : Nat) : Nat :=
  (lines.take k).countP NumberedLine.opensCard

/-- The card that the line at `k` belongs to: the last one that is open by the end of the line. -/
def cardOf (lines : List NumberedLine) (k : Nat) : Nat :=
  openedBefore lines (k + 1) + (if startsUnopened lines then 1 else 0) - 1

/-- The lines before the line at `k` on the same card. -/
def earlierOnCard (lines : List NumberedLine) (k : Nat) : List NumberedLine :=
  (lines.take k).rtakeWhile (!·.opensCard)

/-- The number of instructions before the line at `k` on the same card. -/
def positionOf (lines : List NumberedLine) (k : Nat) : Nat :=
  (earlierOnCard lines k).countP (·.isInstruction)

/-- Further on, no fewer cards have been opened. -/
lemma openedBefore_le (lines : List NumberedLine) {j k : Nat} (h : j ≤ k) :
    openedBefore lines j ≤ openedBefore lines k :=
  (List.take_sublist_take_left h).countP_le

/-- A line opens one card more, or none. -/
lemma openedBefore_succ {lines : List NumberedLine} {k : Nat} {l : NumberedLine}
    (hl : lines[k]? = some l) :
    openedBefore lines (k + 1) = openedBefore lines k + if l.opensCard then 1 else 0 := by
  rw [openedBefore, List.take_add_one, hl, List.countP_append, Option.toList_some,
    List.countP_singleton, openedBefore]

/-- After a heading, more cards have been opened. -/
lemma openedBefore_lt {lines : List NumberedLine} {j k : Nat} {l : NumberedLine}
    (hl : lines[j]? = some l) (hcard : l.opensCard = true) (h : j < k) :
    openedBefore lines j < openedBefore lines k := by
  have hsucc := openedBefore_succ hl
  have hle : openedBefore lines (j + 1) ≤ openedBefore lines k := openedBefore_le lines h
  rw [if_pos hcard] at hsucc
  omega

/-- Lines that open a card are told apart by the number of them that came before. -/
lemma eq_of_openedBefore_eq {lines : List NumberedLine} {j k : Nat} {l l' : NumberedLine}
    (hl : lines[j]? = some l) (hl' : lines[k]? = some l') (hcard : l.opensCard = true)
    (hcard' : l'.opensCard = true) (h : openedBefore lines j = openedBefore lines k) : j = k := by
  rcases Nat.lt_trichotomy j k with hlt | rfl | hlt
  · have := openedBefore_lt hl hcard hlt
    omega
  · rfl
  · have := openedBefore_lt hl' hcard' hlt
    omega

namespace Section

/-- The stretches of lines between lines that open a card. -/
def bodies (lines : List NumberedLine) : List (List NumberedLine) :=
  (split lines).1 :: (split lines).2.map (·.body)

/-- A heading starts a section. -/
lemma split_cons_of_heading? {l : NumberedLine} {number : Nat} {name : Option String}
    (h : l.heading? = some (number, name)) (rest : List NumberedLine) :
    split (l :: rest) = ([], ⟨name, number, (split rest).1⟩ :: (split rest).2) := by
  obtain ⟨number', line⟩ := l
  cases line <;> cases h
  rfl

/-- A line without a heading goes to the section before it. -/
lemma split_cons_of_not_opensCard {l : NumberedLine} (h : l.opensCard = false)
    (rest : List NumberedLine) : split (l :: rest) = (l :: (split rest).1, (split rest).2) := by
  obtain ⟨number, line⟩ := l
  cases line <;> first | rfl | cases h

/-- What stands before the first heading is the lines up to it. -/
lemma fst_split (lines : List NumberedLine) :
    (split lines).1 = lines.takeWhile (!·.opensCard) := by
  induction lines with
  | nil => rfl
  | cons l rest ih =>
    cases hl : l.heading? with
    | none =>
      have hcard := NumberedLine.opensCard_of_heading?_eq_none hl
      rw [split_cons_of_not_opensCard hcard, List.takeWhile_cons_of_pos (by simp [hcard]), ih]
    | some heading =>
      have hcard := NumberedLine.opensCard_of_heading?_eq_some hl
      rw [split_cons_of_heading? hl, List.takeWhile_cons_of_neg (by simp [hcard])]

/-- The sections that a line opens come in the order of those lines. -/
lemma headings_eq (lines : List NumberedLine) :
    (split lines).2.map (fun s => (s.definedAt, s.name)) = lines.filterMap (·.heading?) := by
  induction lines with
  | nil => rfl
  | cons l rest ih =>
    cases hl : l.heading? with
    | none =>
      have hcard := NumberedLine.opensCard_of_heading?_eq_none hl
      rw [split_cons_of_not_opensCard hcard, List.filterMap_cons_none hl, ih]
    | some heading =>
      rw [split_cons_of_heading? hl, List.filterMap_cons_some hl, List.map_cons, ih]

/-- The lines of `body` open no card, and the lines right before and after it do, if there are any. -/
structure IsStretch (front body back : List NumberedLine) : Prop where
  plain {l : NumberedLine} (h : l ∈ body) : l.opensCard = false
  before {l : NumberedLine} (h : front.getLast? = some l) : l.opensCard = true
  after {l : NumberedLine} (h : back.head? = some l) : l.opensCard = true

/-- A stretch is a run of consecutive lines, with as many headings before it as stretches. -/
lemma bodies_eq_append {lines : List NumberedLine} {n : Nat} {body : List NumberedLine}
    (h : (bodies lines)[n]? = some body) :
    ∃ front back, lines = front ++ (body ++ back) ∧ front.countP NumberedLine.opensCard = n ∧
      IsStretch front body back := by
  induction lines generalizing n body with
  | nil =>
    cases n with
    | zero =>
      obtain rfl : [] = body := Option.some.inj h
      exact ⟨[], [], rfl, rfl, ⟨by simp, by simp, by simp⟩⟩
    | succ n => cases h
  | cons l rest ih =>
    cases hl : l.heading? with
    | none =>
      have hcard := NumberedLine.opensCard_of_heading?_eq_none hl
      rw [bodies, split_cons_of_not_opensCard hcard] at h
      cases n with
      | zero =>
        cases h
        obtain ⟨front, back, e, hfront, stretch⟩ := @ih 0 (split rest).1 rfl
        -- no line before the first stretch opens a card, so there is none
        obtain rfl : front = [] := by
          by_contra hne
          have hlast := stretch.before (List.getLast?_eq_some_getLast hne)
          exact List.countP_eq_zero.1 hfront _ (List.getLast_mem hne) hlast
        refine ⟨[], back, congrArg (l :: ·) e, rfl, ⟨fun hx => ?_, by simp, stretch.after⟩⟩
        rcases List.mem_cons.1 hx with rfl | hx
        · exact hcard
        · exact stretch.plain hx
      | succ n =>
        obtain ⟨front, back, e, hfront, stretch⟩ := @ih (n + 1) body h
        refine ⟨l :: front, back, congrArg (l :: ·) e, ?_, ⟨stretch.plain, fun hx => ?_, stretch.after⟩⟩
        · rw [List.countP_cons_of_neg (by simp [hcard]), hfront]
        · cases front with
          | nil => cases hfront
          | cons y front => exact stretch.before hx
    | some heading =>
      have hcard := NumberedLine.opensCard_of_heading?_eq_some hl
      rw [bodies, split_cons_of_heading? hl] at h
      cases n with
      | zero =>
        cases h
        refine ⟨[], l :: rest, rfl, rfl, ⟨by simp, by simp, fun hx => ?_⟩⟩
        cases hx
        exact hcard
      | succ n =>
        obtain ⟨front, back, e, hfront, stretch⟩ := @ih n body h
        refine ⟨l :: front, back, congrArg (l :: ·) e, ?_, ⟨stretch.plain, fun hx => ?_, stretch.after⟩⟩
        · rw [List.countP_cons_of_pos hcard, hfront]
        · cases front with
          | nil => cases hx; exact hcard
          | cons y front => exact stretch.before hx

namespace IsStretch

variable {front body back : List NumberedLine} (stretch : IsStretch front body back)
include stretch

/-- Inside a section as many cards have been opened as before it. -/
lemma openedBefore_eq {j : Nat} (hj : j ≤ body.length) :
    openedBefore (front ++ (body ++ back)) (front.length + j) =
      front.countP NumberedLine.opensCard := by
  have hnone : (body.take j).countP NumberedLine.opensCard = 0 := by
    refine List.countP_eq_zero.2 fun x hx => ?_
    rw [stretch.plain (List.mem_of_mem_take hx)]
    exact Bool.false_ne_true
  rw [openedBefore, List.take_length_add_append, List.take_append_of_le_length hj,
    List.countP_append, hnone, Nat.add_zero]

/-- Before a line of a section stand on its card the earlier lines of the section. -/
lemma earlierOnCard_eq {j : Nat} (hj : j ≤ body.length) :
    earlierOnCard (front ++ (body ++ back)) (front.length + j) = body.take j := by
  rw [earlierOnCard, List.take_length_add_append, List.take_append_of_le_length hj]
  refine rtakeWhile_append (fun x hx => ?_) fun x hx => ?_
  · simp [stretch.plain (List.mem_of_mem_take hx)]
  · simp [stretch.before hx]

/-- Before a section fewer cards have been opened. -/
lemma openedBefore_lt_of_lt {k : Nat} (hk : k < front.length) :
    openedBefore (front ++ (body ++ back)) k < front.countP NumberedLine.opensCard := by
  have hne : front ≠ [] := List.ne_nil_of_length_pos (by omega)
  have hlast : (front ++ (body ++ back))[front.length - 1]? = some (front.getLast hne) := by
    rw [List.getElem?_append_left (by omega), ← List.getLast?_eq_getElem?,
      List.getLast?_eq_some_getLast hne]
  have hcard := stretch.before (List.getLast?_eq_some_getLast hne)
  calc openedBefore (front ++ (body ++ back)) k
      ≤ openedBefore (front ++ (body ++ back)) (front.length - 1) := openedBefore_le _ (by omega)
    _ < openedBefore (front ++ (body ++ back)) (front.length + 0) :=
        openedBefore_lt hlast hcard (by omega)
    _ = front.countP NumberedLine.opensCard := stretch.openedBefore_eq (Nat.zero_le _)

/-- After the stretch stands a line that opens a card, and then more lines do. -/
lemma lt_openedBefore {k : Nat} {l : NumberedLine} (hk : front.length + body.length ≤ k)
    (hl : (front ++ (body ++ back))[k]? = some l) (hcard : l.opensCard = false) :
    front.countP NumberedLine.opensCard < openedBefore (front ++ (body ++ back)) k := by
  have hat (i : Nat) : (front ++ (body ++ back))[front.length + body.length + i]? = back[i]? := by
    rw [← List.append_assoc, ← List.length_append, List.getElem?_append_right (by omega),
      Nat.add_sub_cancel_left]
  obtain ⟨i, rfl⟩ := Nat.exists_eq_add_of_le hk
  rw [hat] at hl
  obtain _ | ⟨x, back⟩ := back
  · cases hl
  · have hx : x.opensCard = true := stretch.after rfl
    have hi : 0 < i := by
      refine Nat.pos_of_ne_zero ?_
      rintro rfl
      cases hl
      rw [hx] at hcard
      cases hcard
    calc front.countP NumberedLine.opensCard
        = openedBefore (front ++ (body ++ x :: back)) (front.length + body.length + 0) :=
          (stretch.openedBefore_eq (Nat.le_refl _)).symm
      _ < openedBefore (front ++ (body ++ x :: back)) (front.length + body.length + i) :=
          openedBefore_lt (hat 0) hx (by omega)

end IsStretch

/-- The stretch `body` is made of the lines from `start` on with `n` lines before them that open a
card. -/
structure Spans (lines body : List NumberedLine) (n start : Nat) : Prop where
  inside {j : Nat} {l : NumberedLine} (h : body[j]? = some l) :
    lines[start + j]? = some l ∧ l.opensCard = false ∧ openedBefore lines (start + j) = n ∧
      earlierOnCard lines (start + j) = body.take j
  only {k : Nat} {l : NumberedLine} (hl : lines[k]? = some l) (hcard : l.opensCard = false)
    (hn : openedBefore lines k = n) : ∃ j, k = start + j ∧ body[j]? = some l

/-- Each body stands somewhere among the lines. -/
lemma exists_spans {lines body : List NumberedLine} {n : Nat} (h : (bodies lines)[n]? = some body) :
    ∃ start, Spans lines body n start := by
  obtain ⟨front, back, rfl, rfl, stretch⟩ := bodies_eq_append h
  have hat {j : Nat} (hj : j < body.length) :
      (front ++ (body ++ back))[front.length + j]? = body[j]? := by
    rw [List.getElem?_append_right (by omega), Nat.add_sub_cancel_left, List.getElem?_append_left hj]
  refine ⟨front.length, ⟨fun {j l} hj => ?_, fun {k l} hl hcard hn => ?_⟩⟩
  · have hlt : j < body.length := (List.getElem?_eq_some_iff.1 hj).1
    exact ⟨(hat hlt).trans hj, stretch.plain (List.mem_of_getElem? hj),
      stretch.openedBefore_eq (by omega), stretch.earlierOnCard_eq (by omega)⟩
  · have hge : front.length ≤ k := by
      by_contra hlt
      have := stretch.openedBefore_lt_of_lt (Nat.not_le.1 hlt)
      omega
    obtain ⟨j, rfl⟩ := Nat.exists_eq_add_of_le hge
    have hlt : j < body.length := by
      by_contra hle
      have := stretch.lt_openedBefore (by omega) hl hcard
      omega
    exact ⟨j, rfl, (hat hlt).symm.trans hl⟩

/-- Where nothing stands before the first heading, the sections are those of the headings. -/
lemma ofLines_of_not_startsUnopened {lines : List NumberedLine} (h : startsUnopened lines = false) :
    ofLines lines = (split lines).2 := by
  rw [startsUnopened, ← fst_split, List.any_eq_false] at h
  have hfind : (split lines).1.find? (·.line ≠ .blank) = none := List.find?_eq_none.2 h
  rw [ofLines]
  dsimp only
  rw [hfind]

/-- What stands before the first heading is a section of its own. -/
lemma ofLines_of_startsUnopened {lines : List NumberedLine} (h : startsUnopened lines = true) :
    ∃ number, ofLines lines = ⟨none, number, (split lines).1⟩ :: (split lines).2 := by
  rw [startsUnopened, ← fst_split, List.any_eq_true] at h
  have hfind : ((split lines).1.find? (·.line ≠ .blank)).isSome := List.find?_isSome.2 h
  obtain ⟨first, hfirst⟩ := Option.isSome_iff_exists.1 hfind
  refine ⟨first.number, ?_⟩
  rw [ofLines]
  dsimp only
  rw [hfirst]

/-- The sections of a source are the stretches, less the first one if it is blank. -/
lemma exists_section {lines body : List NumberedLine} {n c : Nat}
    (h : (bodies lines)[n]? = some body)
    (hc : c + 1 = n + if startsUnopened lines then 1 else 0) :
    ∃ s, (ofLines lines)[c]? = some s ∧ s.body = body := by
  cases hu : startsUnopened lines with
  | false =>
    rw [hu] at hc
    obtain rfl : n = c + 1 := by simpa using hc.symm
    rw [ofLines_of_not_startsUnopened hu]
    rw [bodies, List.getElem?_cons_succ, List.getElem?_map] at h
    exact Option.map_eq_some_iff.1 h
  | true =>
    rw [hu] at hc
    obtain rfl : n = c := by simpa using hc.symm
    obtain ⟨number, e⟩ := ofLines_of_startsUnopened hu
    rw [e]
    cases n with
    | zero =>
      cases h
      exact ⟨_, rfl, rfl⟩
    | succ n =>
      rw [bodies, List.getElem?_cons_succ, List.getElem?_map] at h
      exact Option.map_eq_some_iff.1 h

/-- There is a body for each heading, and one before them. -/
lemma length_bodies (lines : List NumberedLine) :
    (bodies lines).length = openedBefore lines lines.length + 1 := by
  have hcount := congrArg List.length (headings_eq lines)
  rw [List.length_map, List.length_filterMap_eq_countP] at hcount
  rw [bodies, List.length_cons, List.length_map, hcount, openedBefore, List.take_length]
  simp only [NumberedLine.isSome_heading?]

/-- A line that is not blank has a card. -/
lemma cardOf_add_one {lines : List NumberedLine} {k : Nat} {l : NumberedLine}
    (hl : lines[k]? = some l) (hblank : l.line ≠ .blank) :
    cardOf lines k + 1 = openedBefore lines (k + 1) + if startsUnopened lines then 1 else 0 := by
  rw [cardOf]
  refine Nat.sub_add_cancel (Nat.pos_of_ne_zero fun h => ?_)
  obtain ⟨hnone, hu⟩ := Nat.add_eq_zero_iff.1 h
  -- no card is open yet, so the line is one of those before the first heading
  rw [openedBefore_succ hl] at hnone
  obtain ⟨hbefore, hcard⟩ := Nat.add_eq_zero_iff.1 hnone
  obtain ⟨start, span⟩ := exists_spans (show (bodies lines)[0]? = some (split lines).1 from rfl)
  obtain ⟨j, -, hj⟩ := span.only hl (by simpa using hcard) hbefore
  have hmem := List.mem_of_getElem? hj
  rw [fst_split] at hmem
  have hstarts : startsUnopened lines = true :=
    List.any_eq_true.2 ⟨l, hmem, by simpa using hblank⟩
  rw [hstarts] at hu
  cases hu

/-- The card of a line that says something is a section, and the lines of that section are the lines
of the card. -/
lemma exists_section_cardOf {lines : List NumberedLine} {k : Nat} {l : NumberedLine}
    (hl : lines[k]? = some l) (hcard : l.opensCard = false) (hblank : l.line ≠ .blank) :
    ∃ s start, (ofLines lines)[cardOf lines k]? = some s ∧
      Spans lines s.body (openedBefore lines k) start := by
  have hlt : openedBefore lines k < (bodies lines).length := by
    have hle := openedBefore_le lines (Nat.le_of_lt (List.getElem?_eq_some_iff.1 hl).1)
    rw [length_bodies]
    omega
  have hbody := List.getElem?_eq_getElem hlt
  have hc := cardOf_add_one hl hblank
  rw [openedBefore_succ hl, hcard] at hc
  obtain ⟨start, span⟩ := exists_spans hbody
  obtain ⟨s, hs, e⟩ := exists_section hbody hc
  exact ⟨s, start, hs, e ▸ span⟩

/-- Lines of one card are those with the same number of headings before them. -/
lemma cardOf_eq_iff {lines : List NumberedLine} {j k : Nat} {l l' : NumberedLine}
    (hl : lines[j]? = some l) (hl' : lines[k]? = some l') (hcard : l.opensCard = l'.opensCard)
    (hblank : l.line ≠ .blank) (hblank' : l'.line ≠ .blank) :
    cardOf lines j = cardOf lines k ↔ openedBefore lines j = openedBefore lines k := by
  have hj := cardOf_add_one hl hblank
  have hk := cardOf_add_one hl' hblank'
  rw [openedBefore_succ hl] at hj
  rw [openedBefore_succ hl', ← hcard] at hk
  omega

/-- A section is opened by a heading, with its name and its line. -/
lemma exists_heading_split_iff {lines : List NumberedLine} {m number : Nat} {name : Option String} :
    (∃ s, (split lines).2[m]? = some s ∧ s.name = name ∧ s.definedAt = number) ↔
      ∃ q, lines[q]? = some ⟨number, .card name⟩ ∧ openedBefore lines q = m := by
  have hheading : (∃ s, (split lines).2[m]? = some s ∧ s.name = name ∧ s.definedAt = number) ↔
      (lines.filterMap (·.heading?))[m]? = some (number, name) := by
    rw [← headings_eq, List.getElem?_map, Option.map_eq_some_iff]
    simp only [Prod.mk.injEq, and_comm]
  rw [hheading, getElem?_filterMap_iff]
  simp only [NumberedLine.isSome_heading?, NumberedLine.heading?_eq_some_iff]
  constructor
  · rintro ⟨q, _, hq, rfl, hm⟩
    exact ⟨q, hq, hm⟩
  · rintro ⟨q, hq, hm⟩
    exact ⟨q, _, hq, rfl, hm⟩

/-- A heading stands on the card it opens. -/
lemma cardOf_heading {lines : List NumberedLine} {q number : Nat} {name : Option String}
    (hq : lines[q]? = some ⟨number, .card name⟩) :
    cardOf lines q = openedBefore lines q + if startsUnopened lines then 1 else 0 := by
  have hc := cardOf_add_one hq nofun
  have hsucc : openedBefore lines (q + 1) = openedBefore lines q + 1 := openedBefore_succ hq
  omega

/-- A line that opens a card opens the section that is its card. -/
lemma exists_section_of_heading {lines : List NumberedLine} {q number : Nat} {name : Option String}
    (hq : lines[q]? = some ⟨number, .card name⟩) :
    ∃ s, (ofLines lines)[cardOf lines q]? = some s ∧ s.name = name ∧ s.definedAt = number := by
  have hsplit := exists_heading_split_iff.2 ⟨q, hq, rfl⟩
  rw [cardOf_heading hq]
  cases hu : startsUnopened lines with
  | false => rwa [ofLines_of_not_startsUnopened hu]
  | true =>
    obtain ⟨number, e⟩ := ofLines_of_startsUnopened hu
    rwa [e]

/-- Every section but a first one without a name is opened by a line of its own. -/
lemma exists_heading_or_first {lines : List NumberedLine} {c : Nat} {s : Section}
    (hs : (ofLines lines)[c]? = some s) :
    (c = 0 ∧ s.name = none) ∨
      ∃ q, lines[q]? = some ⟨s.definedAt, .card s.name⟩ ∧ cardOf lines q = c := by
  cases hu : startsUnopened lines with
  | false =>
    rw [ofLines_of_not_startsUnopened hu] at hs
    obtain ⟨q, hq, hm⟩ := exists_heading_split_iff.1 ⟨s, hs, rfl, rfl⟩
    refine .inr ⟨q, hq, ?_⟩
    rw [cardOf_heading hq, hu, hm]
    rfl
  | true =>
    obtain ⟨number, e⟩ := ofLines_of_startsUnopened hu
    rw [e] at hs
    cases c with
    | zero =>
      cases hs
      exact .inl ⟨rfl, rfl⟩
    | succ c =>
      obtain ⟨q, hq, hm⟩ := exists_heading_split_iff.1 ⟨s, hs, rfl, rfl⟩
      refine .inr ⟨q, hq, ?_⟩
      rw [cardOf_heading hq, hu, hm]
      rfl

/-- A section with a name was opened by the line with that name. -/
lemma exists_heading_of_section {lines : List NumberedLine} {c : Nat} {s : Section} {name : String}
    (hs : (ofLines lines)[c]? = some s) (hname : s.name = some name) :
    ∃ q, lines[q]? = some ⟨s.definedAt, .card (some name)⟩ ∧ cardOf lines q = c := by
  rcases exists_heading_or_first hs with ⟨-, hnone⟩ | hheading
  · cases hname.symm.trans hnone
  · rwa [hname] at hheading

/-- A section with a name is the card of the line that opens it. -/
lemma exists_name_iff {lines : List NumberedLine} {c : Nat} {name : String} :
    (∃ s, (ofLines lines)[c]? = some s ∧ s.name = some name) ↔
      ∃ q number, lines[q]? = some ⟨number, .card (some name)⟩ ∧ cardOf lines q = c := by
  constructor
  · rintro ⟨s, hs, hname⟩
    obtain ⟨q, hq, hc⟩ := exists_heading_of_section hs hname
    exact ⟨q, _, hq, hc⟩
  · rintro ⟨q, number, hq, rfl⟩
    obtain ⟨s, hs, hname, -⟩ := exists_section_of_heading hq
    exact ⟨s, hs, hname⟩

/-- An instruction of a section comes after the instructions on the lines before it. -/
lemma getElem?_instructions {s : Section} {j number : Nat} {label : Option String}
    {written : WrittenInstruction} (h : s.body[j]? = some ⟨number, .instruction label written⟩) :
    s.instructions[(s.body.take j).countP (·.isInstruction)]? = some ⟨written, number⟩ := by
  refine getElem?_filterMap_iff.2 ⟨j, _, h, rfl, ?_⟩
  refine List.countP_congr fun l _ => ?_
  rw [NumberedLine.isInstruction]
  cases l.line <;> rfl

end Section

end CardMachine
