import CardMachine.Proofs.Place
import Mathlib.Data.List.Nodup

/-!
# Source order is program order

Going through a source line by line meets the same lines, with the same card and position, as going
through its sections one by one and through the body of each (`gatherLines_eq_gatherAll`). Whatever is made
of the lines of a source can so be counted on either side: the labels of a card, the instructions of a
program, what an assembler reports of them. Line by line the places of instructions grow, by card and
then by position (`place_lt_of_lt`).
-/

namespace CardMachine

/-- The instruction on a line, if there is one. -/
def NumberedLine.placed? (l : NumberedLine) : Option PlacedInstruction :=
  match l.line with
  | .instruction _ written => some ⟨written, l.number⟩
  | _ => none

/-- The lines that place an instruction are the instructions. -/
lemma NumberedLine.placed?_eq_some_iff {l : NumberedLine} {placed : PlacedInstruction} :
    l.placed? = some placed ↔ ∃ label, l = ⟨placed.number, .instruction label placed.written⟩ := by
  obtain ⟨number, line⟩ := l
  obtain ⟨written, number'⟩ := placed
  cases line with
  | instruction label written' =>
    simp only [placed?, Option.some.injEq, PlacedInstruction.mk.injEq, NumberedLine.mk.injEq,
      Line.instruction.injEq]
    constructor
    · rintro ⟨rfl, rfl⟩
      exact ⟨label, rfl, rfl, rfl⟩
    · rintro ⟨_, rfl, -, rfl⟩
      exact ⟨rfl, rfl⟩
  | _ => simp [placed?]

/-- Elements come to different things exactly if they stand in different places. -/
lemma nodup_filterMap_iff {α β : Type} {f : α → Option β} {l : List α} :
    (l.filterMap f).Nodup ↔ ∀ (j k : Nat) (a b : α) (x : β),
      l[j]? = some a → l[k]? = some b → f a = some x → f b = some x → j = k := by
  rw [List.Nodup, List.pairwise_filterMap, List.pairwise_iff_getElem]
  constructor
  · intro h j k a b x hj hk ha hb
    obtain ⟨hjl, rfl⟩ := List.getElem?_eq_some_iff.1 hj
    obtain ⟨hkl, rfl⟩ := List.getElem?_eq_some_iff.1 hk
    rcases Nat.lt_trichotomy j k with hlt | e | hlt
    · exact absurd rfl (h j k hjl hkl hlt x ha x hb)
    · exact e
    · exact absurd rfl (h k j hkl hjl hlt x hb x ha)
  · intro h j k hj hk hlt x ha y hb e
    subst e
    have := h j k _ _ x (List.getElem?_eq_getElem hj) (List.getElem?_eq_getElem hk) ha hb
    omega

section places

variable {lines : List NumberedLine}

/-- The next line has one more instruction before it if this one is an instruction, and none if this one
opens a card. -/
lemma positionOf_succ {k : Nat} {l : NumberedLine} (hl : lines[k]? = some l) :
    positionOf lines (k + 1) = if l.opensCard then 0 else positionOf lines k + l.line.weight := by
  rw [positionOf, earlierOnCard, List.take_add_one, hl, Option.toList_some]
  split
  · next hopens => rw [List.rtakeWhile_concat_neg _ _ _ (by simp [hopens])]; rfl
  · next hopens =>
    rw [List.rtakeWhile_concat_pos _ _ _ (by simp [hopens]), List.countP_append, List.countP_singleton,
      ← NumberedLine.weight_line]
    rfl

/-- Behind an instruction positions are greater, up to the next line that opens a card. -/
lemma positionOf_lt {j k number : Nat} {label : Option String} {written : WrittenInstruction}
    (hj : lines[j]? = some ⟨number, .instruction label written⟩) (hlt : j < k) (hk : k ≤ lines.length)
    (hsame : openedBefore lines j = openedBefore lines k) : positionOf lines j < positionOf lines k := by
  induction k, hlt using Nat.le_induction with
  | base =>
    rw [positionOf_succ hj]
    exact Nat.lt_succ_self _
  | succ k hle ih =>
    have hl : lines[k]? = some lines[k] := List.getElem?_eq_getElem hk
    have hbefore : openedBefore lines j ≤ openedBefore lines k := openedBefore_le lines (Nat.le_of_lt hle)
    have hafter := openedBefore_succ hl
    have hopens : ¬ lines[k].opensCard = true := by
      intro h
      rw [if_pos h] at hafter
      omega
    rw [if_neg hopens] at hafter
    have hposition := ih (Nat.le_of_lt hk) (by omega)
    rw [positionOf_succ hl, if_neg hopens]
    omega

/-- Instructions on later lines stand on later cards, or further down on the same card. -/
lemma place_lt_of_lt {j k number number' : Nat} {label label' : Option String}
    {written written' : WrittenInstruction} (hj : lines[j]? = some ⟨number, .instruction label written⟩)
    (hk : lines[k]? = some ⟨number', .instruction label' written'⟩) (hlt : j < k) :
    cardOf lines j < cardOf lines k ∨
      cardOf lines j = cardOf lines k ∧ positionOf lines j < positionOf lines k := by
  have hopened : openedBefore lines (j + 1) ≤ openedBefore lines (k + 1) :=
    openedBefore_le lines (by omega)
  have hle : cardOf lines j ≤ cardOf lines k := by
    rw [cardOf, cardOf]
    omega
  rcases Nat.lt_or_eq_of_le hle with h | h
  · exact .inl h
  · have hsame := (Section.cardOf_eq_iff hj hk rfl (by rintro ⟨⟩) (by rintro ⟨⟩)).1 h
    have hk' : k < lines.length := (List.getElem?_eq_some_iff.1 hk).1
    exact .inr ⟨h, positionOf_lt hj hlt (Nat.le_of_lt hk') hsame⟩

end places

/-- Indices go up along a list. -/
lemma pairwise_snd_zipIdx {α : Type} (l : List α) : l.zipIdx.Pairwise fun p q => p.2 < q.2 := by
  rw [← List.pairwise_map, List.zipIdx_map_snd]
  exact List.pairwise_lt_range' ..

/-- What comes of the members of a list with their indices comes of one of them. -/
lemma mem_flatMap_zipIdx_iff {α β : Type} {l : List α} {f : α × Nat → List β} {x : β} :
    x ∈ l.zipIdx.flatMap f ↔ ∃ n a, l[n]? = some a ∧ x ∈ f (a, n) := by
  rw [List.mem_flatMap]
  constructor
  · rintro ⟨⟨a, n⟩, hmem, hx⟩
    exact ⟨n, a, List.mk_mem_zipIdx_iff_getElem?.1 hmem, hx⟩
  · rintro ⟨n, a, ha, hx⟩
    exact ⟨(a, n), List.mk_mem_zipIdx_iff_getElem?.2 ha, hx⟩

namespace Section

/-- Lines and the number of instructions before each, `index` for the first of them. -/
def positions (index : Nat) : List NumberedLine → List (Nat × NumberedLine)
  | [] => []
  | l :: rest => (index, l) :: positions (index + l.line.weight) rest

/-- Only lines of the body have positions on it. -/
lemma mem_of_mem_positions {index i : Nat} {lines : List NumberedLine} {l : NumberedLine}
    (h : (i, l) ∈ positions index lines) : l ∈ lines := by
  induction lines generalizing index with
  | nil => cases h
  | cons first rest ih =>
    rcases List.mem_cons.1 h with e | h
    · cases e
      exact List.mem_cons_self
    · exact List.mem_cons_of_mem first (ih h)

section

variable {β : Type} (f : Nat → Nat → NumberedLine → Option β)

/-- What comes of the lines of card `c`, the first of them having `index` instructions before it. -/
def gather (c index : Nat) (body : List NumberedLine) : List β :=
  (positions index body).filterMap fun (i, l) => f c i l

/-- What comes of sections, the first of them being card `c`. -/
def gatherAll (c : Nat) (sections : List Section) : List β :=
  (sections.zipIdx c).flatMap fun (s, n) => gather f n 0 s.body

/-- What comes of the lines of a source, each taken where it stands. -/
def gatherLines (lines : List NumberedLine) : List β :=
  lines.zipIdx.filterMap fun (l, k) => f (cardOf lines k) (positionOf lines k) l

/-- What comes of the first member stands in front. -/
lemma filterMap_cons_eq_toList_append {α : Type} (g : α → Option β) (a : α) (l : List α) :
    (a :: l).filterMap g = (g a).toList ++ l.filterMap g := by
  cases h : g a <;> simp [h]

/-- What comes of a first line stands in front, and the others move on by its weight. -/
lemma gather_cons (c index : Nat) (l : NumberedLine) (rest : List NumberedLine) :
    gather f c index (l :: rest) =
      (f c index l).toList ++ gather f c (index + l.line.weight) rest := by
  rw [gather, positions, filterMap_cons_eq_toList_append]
  rfl

/-- What comes of a first section stands in front, and the others are the next cards. -/
lemma gatherAll_cons (c : Nat) (s : Section) (rest : List Section) :
    gatherAll f c (s :: rest) = gather f c 0 s.body ++ gatherAll f (c + 1) rest := by
  rw [gatherAll, List.zipIdx_cons, List.flatMap_cons]
  rfl

variable {f}

/-- The lines of a source from some line on are first the rest of the card that is open, and then the
cards that follow. -/
lemma filterMap_zipIdx_eq (hcard : ∀ c i l, l.opensCard = true → f c i l = none)
    {lines front back : List NumberedLine} (h : lines = front ++ back) {n : Nat}
    (hn : front.countP NumberedLine.opensCard + (if startsUnopened lines then 1 else 0) = n) :
    ((back.zipIdx front.length).filterMap fun (l, k) => f (cardOf lines k) (positionOf lines k) l) =
      gather f (n - 1) ((front.rtakeWhile (!·.opensCard)).countP (·.isInstruction)) (split back).1 ++
        gatherAll f n (split back).2 := by
  induction back generalizing front n with
  | nil => rfl
  | cons l rest ih =>
    have hnext : lines = (front ++ [l]) ++ rest := by rw [h, List.append_assoc]; rfl
    have hlength : (front ++ [l]).length = front.length + 1 := List.length_append
    have hl : lines[front.length]? = some l := by simp [h]
    have htake : lines.take front.length = front := by simp [h]
    have hposition : positionOf lines front.length =
        (front.rtakeWhile (!·.opensCard)).countP (·.isInstruction) := by
      rw [positionOf, earlierOnCard, htake]
    rw [List.zipIdx_cons, filterMap_cons_eq_toList_append, ← hlength]
    cases hheading : l.heading? with
    | some heading =>
      have hopens := NumberedLine.opensCard_of_heading?_eq_some hheading
      have hcount : (front ++ [l]).countP NumberedLine.opensCard +
          (if startsUnopened lines then 1 else 0) = n + 1 := by
        rw [List.countP_append, List.countP_singleton, if_pos hopens]
        omega
      rw [ih hnext hcount, split_cons_of_heading? hheading]
      dsimp only
      rw [hcard _ _ l hopens, gatherAll_cons, List.rtakeWhile_concat_neg _ _ _ (by simp [hopens])]
      rfl
    | none =>
      have hopens := NumberedLine.opensCard_of_heading?_eq_none hheading
      have hcount : (front ++ [l]).countP NumberedLine.opensCard +
          (if startsUnopened lines then 1 else 0) = n := by
        rw [List.countP_append, List.countP_singleton, if_neg (by simp [hopens]), Nat.add_zero, hn]
      have hcardOf : cardOf lines front.length = n - 1 := by
        rw [cardOf, openedBefore_succ hl, openedBefore, htake, if_neg (by simp [hopens]),
          Nat.add_zero, hn]
      rw [ih hnext hcount, split_cons_of_not_opensCard hopens]
      dsimp only
      rw [gather_cons, hcardOf, hposition, List.append_assoc,
        List.rtakeWhile_concat_pos _ _ _ (by simp [hopens]), List.countP_append,
        List.countP_singleton, ← NumberedLine.weight_line]

/-- Source order is program order. -/
lemma gatherLines_eq_gatherAll (hcard : ∀ c i l, l.opensCard = true → f c i l = none)
    (hblank : ∀ c i l, l.line = .blank → f c i l = none) (lines : List NumberedLine) :
    gatherLines f lines = gatherAll f 0 (ofLines lines) := by
  have hall := filterMap_zipIdx_eq hcard (List.nil_append lines).symm rfl
  rw [gatherLines]
  refine hall.trans ?_
  cases hu : startsUnopened lines with
  | true =>
    obtain ⟨number, e⟩ := ofLines_of_startsUnopened hu
    rw [e, gatherAll_cons]
    rfl
  | false =>
    -- the lines before the first heading are blank
    have hnone : gather f 0 0 (split lines).1 = [] := by
      refine List.filterMap_eq_nil_iff.2 fun ⟨i, l⟩ hmem => ?_
      have hl := mem_of_mem_positions hmem
      rw [fst_split] at hl
      rw [startsUnopened, List.any_eq_false] at hu
      exact hblank 0 i l (by simpa using hu l hl)
    rw [ofLines_of_not_startsUnopened hu]
    exact congrArg (· ++ gatherAll f 0 (split lines).2) hnone

/-- Where the position of a line does not matter, it is not counted. -/
lemma gather_eq_filterMap (g : Nat → NumberedLine → Option β) (c index : Nat)
    (body : List NumberedLine) : gather (fun c _ l => g c l) c index body = body.filterMap (g c) := by
  induction body generalizing index with
  | nil => rfl
  | cons l rest ih => rw [gather_cons, ih, filterMap_cons_eq_toList_append]

/-- The position of an instruction is its index among the instructions. -/
lemma gather_placed? (g : Nat → Nat → PlacedInstruction → Option β) (c index : Nat)
    (body : List NumberedLine) :
    gather (fun c i l => l.placed?.bind (g c i)) c index body =
      ((body.filterMap (·.placed?)).zipIdx index).filterMap fun (placed, i) => g c i placed := by
  induction body generalizing index with
  | nil => rfl
  | cons l rest ih =>
    obtain ⟨number, line⟩ := l
    rw [gather_cons, ih]
    cases line with
    | instruction label written =>
      rw [List.filterMap_cons_some (show NumberedLine.placed? _ = some _ from rfl), List.zipIdx_cons,
        filterMap_cons_eq_toList_append]
      rfl
    | _ => rfl

/-- What comes of the instructions line by line comes of them card by card. -/
lemma gatherLines_placed? (g : Nat → Nat → PlacedInstruction → Option β)
    (lines : List NumberedLine) :
    gatherLines (fun c i l => l.placed?.bind (g c i)) lines =
      (ofLines lines).zipIdx.flatMap fun (s, c) =>
        s.instructions.zipIdx.filterMap fun (placed, i) => g c i placed := by
  rw [gatherLines_eq_gatherAll]
  · rw [gatherAll]
    simp only [gather_placed?]
    rfl
  · rintro c i ⟨number, line⟩ h
    cases line <;> first | rfl | cases h
  · rintro c i ⟨number, line⟩ rfl
    rfl

/-- What comes of a source comes of one of its lines, where it stands. -/
lemma mem_gatherLines_iff {lines : List NumberedLine} {x : β} :
    x ∈ gatherLines f lines ↔
      ∃ k l, lines[k]? = some l ∧ f (cardOf lines k) (positionOf lines k) l = some x := by
  rw [gatherLines, List.mem_filterMap]
  constructor
  · rintro ⟨⟨l, k⟩, hmem, hx⟩
    exact ⟨k, l, List.mk_mem_zipIdx_iff_getElem?.1 hmem, hx⟩
  · rintro ⟨k, l, hl, hx⟩
    exact ⟨(l, k), List.mk_mem_zipIdx_iff_getElem?.2 hl, hx⟩

end

/-- An instruction of a section stands on a line of that card, at its position. -/
lemma getElem?_instructions_iff {lines : List NumberedLine} {c i : Nat} {placed : PlacedInstruction} :
    (∃ s, (ofLines lines)[c]? = some s ∧ s.instructions[i]? = some placed) ↔
      ∃ k label, lines[k]? = some ⟨placed.number, .instruction label placed.written⟩ ∧
        cardOf lines k = c ∧ positionOf lines k = i := by
  have hsections := gatherLines_placed? (fun c i placed => some (c, i, placed)) lines
  have hmem := iff_of_eq (congrArg ((c, i, placed) ∈ ·) hsections)
  simp only [mem_gatherLines_iff, mem_flatMap_zipIdx_iff, List.mem_filterMap, Prod.exists,
    List.mk_mem_zipIdx_iff_getElem?] at hmem
  constructor
  · rintro ⟨s, hs, hi⟩
    obtain ⟨k, l, hl, hx⟩ := hmem.2 ⟨c, s, hs, placed, i, hi, rfl⟩
    obtain ⟨placed', hplaced, e⟩ := Option.bind_eq_some_iff.1 hx
    cases e
    obtain ⟨label, rfl⟩ := NumberedLine.placed?_eq_some_iff.1 hplaced
    exact ⟨k, label, hl, rfl, rfl⟩
  · rintro ⟨k, label, hl, rfl, rfl⟩
    obtain ⟨c, s, hs, placed', i, hi, e⟩ := hmem.1 ⟨k, _, hl, rfl⟩
    cases e
    exact ⟨s, hs, hi⟩

/-- What comes of the labels line by line comes of them card by card. -/
lemma gatherLines_label? (lines : List NumberedLine) :
    gatherLines (fun c _ l => l.line.label?.map (c, ·)) lines =
      (ofLines lines).zipIdx.flatMap fun (s, c) =>
        (s.body.filterMap (·.line.label?)).map (c, ·) := by
  rw [gatherLines_eq_gatherAll]
  · rw [gatherAll]
    simp only [gather_eq_filterMap, List.map_filterMap]
  · rintro c i ⟨number, line⟩ h
    cases line <;> first | rfl | cases h
  · rintro c i ⟨number, line⟩ rfl
    rfl

/-- The label on a line and what it means, on card `c` with `i` instructions before it. -/
def named (c i : Nat) (l : NumberedLine) : Option (Nat × String × Symbol) :=
  l.line.label?.map fun name => (c, name, ⟨i, l.number⟩)

/-- A label is entered with the position of its line. -/
lemma labelEntries_eq_map (index : Nat) (lines : List NumberedLine) :
    Layout.labelEntries index lines =
      (positions index lines).map fun (i, l) => (l.line.label?, ⟨i, l.number⟩) := by
  induction lines generalizing index with
  | nil => rfl
  | cons l rest ih => exact congrArg (_ :: ·) (ih _)

/-- A label of a section stands on a line of that card, with so many instructions before it. -/
lemma mem_labelEntries_iff {lines : List NumberedLine} {c : Nat} {s : Section}
    (hs : (ofLines lines)[c]? = some s) {name : String} {symbol : Symbol} :
    (some name, symbol) ∈ Layout.labelEntries 0 s.body ↔
      ∃ k l, lines[k]? = some l ∧ l.line.label? = some name ∧ cardOf lines k = c ∧
        symbol = ⟨positionOf lines k, l.number⟩ := by
  have hbody : (some name, symbol) ∈ Layout.labelEntries 0 s.body ↔
      (c, name, symbol) ∈ gather named c 0 s.body := by
    rw [labelEntries_eq_map, List.mem_map, gather, List.mem_filterMap]
    refine exists_congr fun p => and_congr_right fun _ => ?_
    simp [named]
  have hcard : (c, name, symbol) ∈ gather named c 0 s.body ↔
      (c, name, symbol) ∈ gatherLines named lines := by
    rw [gatherLines_eq_gatherAll, gatherAll, mem_flatMap_zipIdx_iff]
    · refine ⟨fun h => ⟨c, s, hs, h⟩, fun ⟨n, s', hs', h⟩ => ?_⟩
      obtain ⟨p, -, hp⟩ := List.mem_filterMap.1 h
      obtain ⟨_, -, e⟩ := Option.map_eq_some_iff.1 hp
      cases e
      cases hs.symm.trans hs'
      exact h
    · rintro c i ⟨number, line⟩ h
      cases line <;> first | rfl | cases h
    · rintro c i ⟨number, line⟩ rfl
      rfl
  rw [hbody, hcard, mem_gatherLines_iff]
  refine exists₂_congr fun k l => and_congr_right fun _ => ?_
  simp only [named, Option.map_eq_some_iff, Prod.mk.injEq]
  constructor
  · rintro ⟨_, hname, hc, rfl, rfl⟩
    exact ⟨hname, hc, rfl⟩
  · rintro ⟨hname, hc, rfl⟩
    exact ⟨name, hname, hc, rfl, rfl⟩

/-- No section has a label twice exactly if no two lines of one card have the same label. -/
lemma nodup_labels_iff {lines : List NumberedLine} :
    (∀ s ∈ ofLines lines, (s.body.filterMap (·.line.label?)).Nodup) ↔
      ∀ (j k : Nat) (l l' : NumberedLine) (name : String), lines[j]? = some l → lines[k]? = some l' →
        l.line.label? = some name → l'.line.label? = some name →
        cardOf lines j = cardOf lines k → j = k := by
  have hsections : (gatherLines (fun c _ l => l.line.label?.map (c, ·)) lines).Nodup ↔
      ∀ s ∈ ofLines lines, (s.body.filterMap (·.line.label?)).Nodup := by
    rw [gatherLines_label?, List.nodup_flatMap, and_iff_left]
    · constructor
      · intro h s hs
        obtain ⟨n, hn⟩ := List.mem_iff_getElem?.1 hs
        exact (h (s, n) (List.mk_mem_zipIdx_iff_getElem?.2 hn)).of_map
      · rintro h ⟨s, n⟩ hs
        refine (h s (List.mem_of_getElem? (List.mk_mem_zipIdx_iff_getElem?.1 hs))).map ?_
        exact fun _ _ => And.right ∘ Prod.mk.inj
    · -- labels of different cards are told apart by the card
      refine (pairwise_snd_zipIdx (ofLines lines)).imp fun {p q} hlt => ?_
      intro x hp hq
      obtain ⟨_, -, rfl⟩ := List.mem_map.1 hp
      obtain ⟨_, -, e⟩ := List.mem_map.1 hq
      exact absurd (Prod.mk.inj e).1 (Nat.ne_of_gt hlt)
  rw [← hsections, gatherLines, nodup_filterMap_iff]
  constructor
  · intro h j k l l' name hl hl' hname hname' hcard
    refine h j k (l, j) (l', k) (cardOf lines j, name) ?_ ?_ ?_ ?_
    · simp [List.getElem?_zipIdx, hl]
    · simp [List.getElem?_zipIdx, hl']
    · simp [hname]
    · simp [hname', hcard]
  · rintro h j k ⟨l, j'⟩ ⟨l', k'⟩ ⟨c, name⟩ hl hl' hname hname'
    simp only [List.getElem?_zipIdx, Option.map_eq_some_iff, Prod.mk.injEq, Nat.zero_add] at hl hl'
    obtain ⟨l, hl, rfl, rfl⟩ := hl
    obtain ⟨l', hl', rfl, rfl⟩ := hl'
    simp only [Option.map_eq_some_iff, Prod.mk.injEq] at hname hname'
    obtain ⟨_, hname, rfl, rfl⟩ := hname
    obtain ⟨_, hname', hcard, rfl⟩ := hname'
    exact h j k l l' _ hl hl' hname hname' hcard.symm

/-- The names of the cards are those in the headings. -/
lemma filterMap_name (lines : List NumberedLine) :
    (ofLines lines).filterMap (·.name) = lines.filterMap fun l => l.heading?.bind Prod.snd := by
  have hnames : (split lines).2.filterMap (·.name) =
      lines.filterMap fun l => l.heading?.bind Prod.snd := by
    rw [← List.filterMap_filterMap, ← headings_eq, List.filterMap_map]
    rfl
  rw [← hnames]
  cases hu : startsUnopened lines with
  | true =>
    obtain ⟨number, e⟩ := ofLines_of_startsUnopened hu
    rw [e, List.filterMap_cons_none rfl]
  | false => rw [ofLines_of_not_startsUnopened hu]

/-- There is a card for each heading, and one for what stands before the first, if anything does. -/
lemma length_ofLines (lines : List NumberedLine) :
    (ofLines lines).length =
      openedBefore lines lines.length + if startsUnopened lines then 1 else 0 := by
  have hsplit : (split lines).2.length = openedBefore lines lines.length := by
    have h := length_bodies lines
    rw [bodies, List.length_cons, List.length_map] at h
    exact Nat.succ.inj h
  cases hu : startsUnopened lines with
  | true =>
    obtain ⟨number, e⟩ := ofLines_of_startsUnopened hu
    rw [e, List.length_cons, hsplit]
    rfl
  | false =>
    rw [ofLines_of_not_startsUnopened hu, hsplit]
    rfl

/-- The cards of a source are so many exactly if no line opens a further one. -/
lemma length_ofLines_le_iff {lines : List NumberedLine} {limit : Nat} (hlimit : 0 < limit) :
    (ofLines lines).length ≤ limit ↔
      ∀ {q number name}, lines[q]? = some ⟨number, .card name⟩ → cardOf lines q < limit := by
  have hfirst : (if startsUnopened lines then 1 else 0) ≤ limit := by split <;> omega
  rw [length_ofLines]
  constructor
  · intro h q number name hq
    have hlt := openedBefore_lt hq rfl (List.getElem?_eq_some_iff.1 hq).1
    rw [cardOf_heading hq]
    omega
  · intro h
    by_contra hlong
    -- the line that opens the first card too many
    obtain ⟨m, hm⟩ := Nat.exists_eq_add_of_le' hfirst
    have hcount : (lines.filterMap (·.heading?)).length = openedBefore lines lines.length := by
      rw [List.length_filterMap_eq_countP, openedBefore, List.take_length]
      simp only [NumberedLine.isSome_heading?]
    have hlt : m < (lines.filterMap (·.heading?)).length := by omega
    obtain ⟨q, l, hq, hheading, hopened⟩ := getElem?_filterMap_iff.1 (List.getElem?_eq_getElem hlt)
    rw [NumberedLine.heading?_eq_some_iff.1 hheading] at hq
    simp only [NumberedLine.isSome_heading?] at hopened
    have hcard := cardOf_heading hq
    rw [openedBefore, hopened] at hcard
    have := h hq
    omega

end Section

end CardMachine
