import CardMachine.Source
import CardMachine.Proofs.Grammar
import CardMachine.Proofs.Order

/-!
# Blocks of a literate file

A block starts at a fence and goes on to the next fence that is at least as long, or to the end of the
file. `Divides opens` cuts the lines of a file into what stands between blocks and the blocks themselves,
where `opens` tells by its tag whether a fence opens a block. Every file is cut in one way
(`exists_divides`, `Divides.unique`).

Two ways to cut matter. If every fence opens a block, the blocks are those of the file. The reader cuts
it otherwise: only a fence with the tag `cards` opens a block, and what it keeps is what stands inside of
those (`Divides.literate_eq`). The blocks it reads are the blocks of the file with that tag exactly if no
fence with that tag stands inside of another block or at its end (`Divides.eq_filter_iff`).
-/

namespace CardMachine

/-- Every list has a longest front part with a property. -/
lemma exists_span {α : Type} (p : α → Bool) (l : List α) :
    ∃ front rest, l = front ++ rest ∧ (∀ a ∈ front, p a = true) ∧
      ∀ a, rest.head? = some a → p a = false := by
  refine ⟨l.takeWhile p, l.dropWhile p, List.takeWhile_append_dropWhile.symm,
    fun a => List.mem_takeWhile_imp, fun a ha => ?_⟩
  have hnot := List.head?_dropWhile_not p l
  rwa [ha] at hnot

namespace Source

/-- The line starts with so many backquotes, blanks in front apart, and `info` comes after them. -/
structure IsFence (line : String) (ticks : Nat) (info : List Char) : Prop where
  three_le : 3 ≤ ticks
  stop : info.head? ≠ some '\x60'
  text : ∃ blanks, (∀ c ∈ blanks, Text.isBlank c = true) ∧
    line.toList = blanks ++ (List.replicate ticks '\x60' ++ info)

/-- Backquotes are counted from the first character that is not blank. -/
lemma fence?_of_text {line : String} {blanks info : List Char} {ticks : Nat}
    (hblanks : ∀ c ∈ blanks, Text.isBlank c = true) (hstop : info.head? ≠ some '\x60')
    (hticks : ticks = 0 → ∀ c, info.head? = some c → Text.isBlank c = false)
    (htext : line.toList = blanks ++ (List.replicate ticks '\x60' ++ info)) :
    fence? line = if 3 ≤ ticks then some (ticks, info) else none := by
  have hfront : ∀ c, (List.replicate ticks '\x60' ++ info).head? = some c → Text.isBlank c = false := by
    intro c hc
    cases ticks with
    | zero => exact hticks rfl c hc
    | succ n => cases hc; rfl
  have hall : ∀ c ∈ List.replicate ticks '\x60', decide (c = '\x60') = true :=
    fun c hc => decide_eq_true (List.eq_of_mem_replicate hc)
  have hrest : ∀ c, info.head? = some c → decide (c = '\x60') = false := by
    intro c hc
    refine decide_eq_false ?_
    rintro rfl
    exact hstop hc
  rw [fence?, htext, (span_append hblanks hfront).2, (span_append hall hrest).1,
    List.length_replicate, List.drop_left' (List.length_replicate ..)]

/-- The reader takes a line for a fence exactly if it is one. -/
lemma fence?_eq_some_iff {line : String} {ticks : Nat} {info : List Char} :
    fence? line = some (ticks, info) ↔ IsFence line ticks info := by
  constructor
  · intro h
    obtain ⟨blanks, cs, hline, hblanks, hcs⟩ := exists_span Text.isBlank line.toList
    obtain ⟨marks, info', rfl, hmarks, hinfo⟩ := exists_span (fun c => decide (c = '\x60')) cs
    have hreplicate : marks = List.replicate marks.length '\x60' :=
      List.eq_replicate_iff.2 ⟨rfl, fun c hc => of_decide_eq_true (hmarks c hc)⟩
    have hstop : info'.head? ≠ some '\x60' := fun hc => by simpa using hinfo _ hc
    rw [hreplicate] at hline
    rw [fence?_of_text hblanks hstop ?_ hline] at h
    · split at h
      · next hthree =>
        cases h
        exact ⟨hthree, hstop, blanks, hblanks, hline⟩
      · cases h
    · intro hzero c hc
      rw [List.eq_nil_of_length_eq_zero hzero] at hcs
      exact hcs c hc
  · rintro ⟨hthree, hstop, blanks, hblanks, hline⟩
    rw [fence?_of_text hblanks hstop (by omega) hline, if_pos hthree]

/-- It takes a line for something else exactly if it is no fence. -/
lemma fence?_eq_none_iff {line : String} :
    fence? line = none ↔ ∀ ticks info, ¬IsFence line ticks info := by
  rw [Option.eq_none_iff_forall_ne_some, Prod.forall]
  simp only [ne_eq, fence?_eq_some_iff]

/-- The length and the tag of a fence are settled by its line. -/
lemma IsFence.unique {line : String} {ticks ticks' : Nat} {info info' : List Char}
    (h : IsFence line ticks info) (h' : IsFence line ticks' info') : ticks = ticks' ∧ info = info' := by
  have e := (fence?_eq_some_iff.2 h).symm.trans (fence?_eq_some_iff.2 h')
  exact Prod.mk.inj (Option.some.inj e)

/-- The line is a fence that ends a block opened with so many backquotes. -/
def Closes (ticks : Nat) (line : SourceLine) : Prop :=
  ∃ ticks' info, IsFence line.text ticks' info ∧ ticks ≤ ticks'

instance (ticks : Nat) (line : SourceLine) : Decidable (Closes ticks line) :=
  decidable_of_iff ((fence? line.text).any (ticks ≤ ·.1) = true) <| by
    simp [Option.any_eq_true, Closes, ← fence?_eq_some_iff]

/-- A block: the fence that opens it, its tag, the lines inside, and the fence that closes it, if one
does. -/
structure Block where
  opening : SourceLine
  tag : List Char
  content : List SourceLine
  closing : Option SourceLine
  deriving DecidableEq

/-- Lines cut into blocks and what stands between them, if `opens` tells the tags of the fences that
open a block. -/
inductive Divides (opens : List Char → Prop) : List SourceLine → List Block → Prop where
  | nil :
    Divides opens [] []
  | outside {line : SourceLine} {lines : List SourceLine} {blocks : List Block} :
    (∀ ticks info, IsFence line.text ticks info → ¬opens (Text.firstWord info)) →
    Divides opens lines blocks →
    Divides opens (line :: lines) blocks
  | closed {opening closing : SourceLine} {ticks : Nat} {info : List Char}
    {content lines : List SourceLine} {blocks : List Block} :
    IsFence opening.text ticks info →
    opens (Text.firstWord info) →
    (∀ line ∈ content, ¬Closes ticks line) →
    Closes ticks closing →
    Divides opens lines blocks →
    Divides opens (opening :: (content ++ closing :: lines))
      (⟨opening, Text.firstWord info, content, some closing⟩ :: blocks)
  | unclosed {opening : SourceLine} {ticks : Nat} {info : List Char} {content : List SourceLine} :
    IsFence opening.text ticks info →
    opens (Text.firstWord info) →
    (∀ line ∈ content, ¬Closes ticks line) →
    Divides opens (opening :: content) [⟨opening, Text.firstWord info, content, none⟩]

/-- The blocks of a file: every fence outside of a block opens one. -/
abbrev HasBlocks : List SourceLine → List Block → Prop := Divides fun _ => True

/-- The blocks that are read: only a fence with the tag of card source opens one. -/
abbrev ReadsBlocks : List SourceLine → List Block → Prop := Divides (· = blockTag.toList)

/-- The block has the tag of card source. -/
def Block.isCards (b : Block) : Bool := b.tag = blockTag.toList

/-- The line is a fence with the tag of card source. -/
def CardFence (line : SourceLine) : Prop :=
  ∃ ticks info, IsFence line.text ticks info ∧ Text.firstWord info = blockTag.toList

instance (line : SourceLine) : Decidable (CardFence line) :=
  decidable_of_iff ((fence? line.text).any (Text.firstWord ·.2 = blockTag.toList) = true) <| by
    simp [Option.any_eq_true, CardFence, ← fence?_eq_some_iff]

/-- The lines after the one that opens a block, up to the one that closes it. -/
def Block.tail (b : Block) : List SourceLine := b.content ++ b.closing.toList

/-- Every line is inside of a block up to the first that closes it. -/
lemma exists_content (ticks : Nat) (lines : List SourceLine) :
    (∀ line ∈ lines, ¬Closes ticks line) ∨
      ∃ content closing rest, lines = content ++ closing :: rest ∧
        (∀ line ∈ content, ¬Closes ticks line) ∧ Closes ticks closing := by
  obtain ⟨content, rest, rfl, hcontent, hrest⟩ := exists_span (fun l => decide (¬Closes ticks l)) lines
  have hinside : ∀ line ∈ content, ¬Closes ticks line := fun l hl => of_decide_eq_true (hcontent l hl)
  cases rest with
  | nil => exact .inl (by simpa using hinside)
  | cons closing rest =>
    exact .inr ⟨content, closing, rest, rfl, hinside, by simpa using hrest closing rfl⟩

/-- A block ends at one line. -/
lemma content_unique {ticks : Nat} {content content' lines lines' : List SourceLine}
    {closing closing' : SourceLine} (hcontent : ∀ line ∈ content, ¬Closes ticks line)
    (hcontent' : ∀ line ∈ content', ¬Closes ticks line) (hclosing : Closes ticks closing)
    (hclosing' : Closes ticks closing')
    (e : content ++ closing :: lines = content' ++ closing' :: lines') :
    content = content' ∧ closing = closing' ∧ lines = lines' := by
  let p (l : SourceLine) : Bool := decide (¬Closes ticks l)
  have hcut (lines : List SourceLine) {content : List SourceLine} {closing : SourceLine}
      (hcontent : ∀ line ∈ content, ¬Closes ticks line) (hclosing : Closes ticks closing) :
      (content ++ closing :: lines).takeWhile p = content ∧
        (content ++ closing :: lines).dropWhile p = closing :: lines := by
    refine span_append (fun l hl => decide_eq_true (hcontent l hl)) ?_
    rintro l ⟨⟩
    exact decide_eq_false (not_not.2 hclosing)
  have h := hcut lines hcontent hclosing
  have h' := hcut lines' hcontent' hclosing'
  rw [e] at h
  obtain ⟨rfl, rfl⟩ := List.cons.inj (h.2.symm.trans h'.2)
  exact ⟨h.1.symm.trans h'.1, rfl, rfl⟩

/-- Every file is cut in some way. -/
lemma exists_divides (opens : List Char → Prop) (lines : List SourceLine) :
    ∃ blocks, Divides opens lines blocks := by
  induction hlength : lines.length using Nat.strong_induction_on generalizing lines with
  | _ n ih =>
    cases lines with
    | nil => exact ⟨[], .nil⟩
    | cons line lines =>
      subst hlength
      by_cases hopens : ∃ ticks info, IsFence line.text ticks info ∧ opens (Text.firstWord info)
      · obtain ⟨ticks, info, hfence, htag⟩ := hopens
        rcases exists_content ticks lines with hcontent | ⟨content, closing, rest, rfl, hcontent, hclosing⟩
        · exact ⟨_, .unclosed hfence htag hcontent⟩
        · obtain ⟨blocks, hblocks⟩ := ih rest.length (by simp; omega) rest rfl
          exact ⟨_, .closed hfence htag hcontent hclosing hblocks⟩
      · obtain ⟨blocks, hblocks⟩ := ih lines.length (Nat.lt_succ_self _) lines rfl
        exact ⟨blocks, .outside (fun ticks info hfence htag => hopens ⟨ticks, info, hfence, htag⟩) hblocks⟩

namespace Divides

variable {opens : List Char → Prop} {lines : List SourceLine} {blocks blocks' : List Block}

/-- A file is cut in one way only. -/
lemma unique (h : Divides opens lines blocks) (h' : Divides opens lines blocks') : blocks = blocks' := by
  induction h generalizing blocks' with
  | nil =>
    cases h'
    rfl
  | outside hline _ ih =>
    cases h' with
    | outside _ h' => exact ih h'
    | closed hfence htag => exact absurd htag (hline _ _ hfence)
    | unclosed hfence htag => exact absurd htag (hline _ _ hfence)
  | @closed opening closing ticks info content lines blocks hfence htag hcontent hclosing _ ih =>
    generalize e : content ++ closing :: lines = rest at h'
    cases h' with
    | outside hline => exact absurd htag (hline _ _ hfence)
    | closed hfence' _ hcontent' hclosing' h' =>
      obtain ⟨rfl, rfl⟩ := hfence.unique hfence'
      obtain ⟨rfl, rfl, rfl⟩ := content_unique hcontent hcontent' hclosing hclosing' e
      rw [ih h']
    | unclosed hfence' _ hcontent' =>
      obtain ⟨rfl, rfl⟩ := hfence.unique hfence'
      exact absurd hclosing (hcontent' closing (by simp [← e]))
  | @unclosed opening ticks info content hfence htag hcontent =>
    generalize e : content = rest at h'
    cases h' with
    | outside hline => exact absurd htag (hline _ _ hfence)
    | @closed _ closing' _ _ _ _ _ hfence' _ _ hclosing' =>
      obtain ⟨rfl, rfl⟩ := hfence.unique hfence'
      exact absurd hclosing' (hcontent closing' (by simp [e]))
    | unclosed hfence' =>
      obtain ⟨rfl, rfl⟩ := hfence.unique hfence'
      rfl

/-- A way to cut lines is the only one. -/
lemma eq_iff (h : Divides opens lines blocks) : Divides opens lines blocks' ↔ blocks' = blocks :=
  ⟨fun h' => h'.unique h, fun e => e ▸ h⟩

/-- What stands inside of blocks are lines of the file, in their order. -/
lemma sublist (h : Divides opens lines blocks) : (blocks.flatMap (·.content)).Sublist lines := by
  induction h with
  | nil => exact .refl _
  | outside _ _ ih => exact ih.cons _
  | closed _ _ _ _ _ ih =>
    rw [List.flatMap_cons]
    exact ((List.Sublist.refl _).append (ih.cons _)).cons _
  | unclosed =>
    rw [List.flatMap_cons, List.flatMap_nil, List.append_nil]
    exact (List.Sublist.refl _).cons _

/-- A block opens on one of the lines. -/
lemma opening_mem (h : Divides opens lines blocks) {b : Block} (hb : b ∈ blocks) : b.opening ∈ lines := by
  induction h with
  | nil => cases hb
  | outside _ _ ih => exact List.mem_cons_of_mem _ (ih hb)
  | closed _ _ _ _ _ ih =>
    rcases List.mem_cons.1 hb with rfl | hb
    · exact List.mem_cons_self
    · exact List.mem_cons_of_mem _ (List.mem_append_right _ (List.mem_cons_of_mem _ (ih hb)))
  | unclosed =>
    obtain rfl := List.mem_singleton.1 hb
    exact List.mem_cons_self

end Divides

namespace Reading

/-- Outside of a block, only a fence with the tag of card source is looked at. -/
lemma next_of_outside {r : Reading} {line : SourceLine} (hr : r.opened = none)
    (hline : ∀ ticks info, IsFence line.text ticks info → Text.firstWord info ≠ blockTag.toList) :
    r.next line = r := by
  rw [next, hr]
  cases hfence : fence? line.text with
  | none => rfl
  | some fence =>
    obtain ⟨ticks, info⟩ := fence
    exact if_neg (by simpa [isCardBlock] using hline ticks info (fence?_eq_some_iff.1 hfence))

/-- Outside of a block, a fence with the tag opens one. -/
lemma next_of_opening {r : Reading} {line : SourceLine} {ticks : Nat} {info : List Char}
    (hr : r.opened = none) (hfence : IsFence line.text ticks info)
    (htag : Text.firstWord info = blockTag.toList) : r.next line = { r with opened := some ticks } := by
  rw [next, hr, fence?_eq_some_iff.2 hfence]
  exact if_pos (by simpa [isCardBlock] using htag)

/-- A closing fence ends the block and is not kept. -/
lemma next_of_closing {r : Reading} {line : SourceLine} {ticks : Nat} (hr : r.opened = some ticks)
    (hclosing : Closes ticks line) : r.next line = { r with opened := none } := by
  obtain ⟨ticks', info, hfence, hle⟩ := hclosing
  rw [next, hr, fence?_eq_some_iff.2 hfence]
  exact if_pos hle

/-- Inside of a block, every line is kept that does not close it. -/
lemma next_of_content {r : Reading} {line : SourceLine} {ticks : Nat} (hr : r.opened = some ticks)
    (hline : ¬Closes ticks line) : r.next line = { r with kept := r.kept.push line } := by
  rw [next, hr]
  cases hfence : fence? line.text with
  | none => rfl
  | some fence =>
    obtain ⟨ticks', info⟩ := fence
    exact if_neg fun hle => hline ⟨ticks', info, fence?_eq_some_iff.1 hfence, hle⟩

/-- Lines of an open block are kept until one closes it. -/
lemma foldl_next_content {r : Reading} {ticks : Nat} {content : List SourceLine}
    (hr : r.opened = some ticks) (hcontent : ∀ line ∈ content, ¬Closes ticks line) :
    content.foldl next r = { r with kept := r.kept ++ content } := by
  induction content generalizing r with
  | nil => simp
  | cons line content ih =>
    rw [List.forall_mem_cons] at hcontent
    rw [List.foldl_cons, next_of_content hr hcontent.1,
      ih (r := ⟨r.opened, r.kept.push line⟩) hr hcontent.2]
    simp

/-- A file that is read leaves what stands inside of the blocks. -/
lemma kept_foldl_next {lines : List SourceLine} {blocks : List Block} (h : ReadsBlocks lines blocks)
    {r : Reading} (hr : r.opened = none) :
    (lines.foldl next r).kept.toList = r.kept.toList ++ blocks.flatMap (·.content) := by
  induction h generalizing r with
  | nil => simp
  | outside hline _ ih => rw [List.foldl_cons, next_of_outside hr hline, ih hr]
  | closed hfence htag hcontent hclosing _ ih =>
    rw [List.foldl_cons, next_of_opening hr hfence htag, List.foldl_append,
      foldl_next_content rfl hcontent, List.foldl_cons, next_of_closing rfl hclosing, ih rfl]
    simp
  | unclosed hfence htag hcontent =>
    rw [List.foldl_cons, next_of_opening hr hfence htag, foldl_next_content rfl hcontent]
    simp

end Reading

/-- What is kept of literate lines is what stands in the blocks that the reader cuts. -/
lemma Divides.literate_eq {lines : List SourceLine} {blocks : List Block}
    (h : ReadsBlocks lines blocks) : literate lines = blocks.flatMap (·.content) := by
  rw [literate, Reading.kept_foldl_next h rfl]
  rfl

/-- Lines are numbered from 1. -/
lemma numbered_eq (content : String) :
    numbered content = (Text.lines content).zipIdx.map fun p => ⟨p.2 + 1, p.1⟩ := rfl

/-- The lines of a file are told apart by their numbers, and come in the order of these. -/
lemma pairwise_numbered (content : String) : (numbered content).Pairwise (·.number < ·.number) := by
  rw [numbered_eq, List.pairwise_map]
  exact (pairwise_snd_zipIdx _).imp Nat.succ_lt_succ

/-- No line is there twice, since no number is. -/
lemma nodup_numbered (content : String) : (numbered content).Nodup :=
  (pairwise_numbered content).imp fun hlt e => Nat.ne_of_lt hlt (congrArg SourceLine.number e)

/-- Card source is some of the lines of its file, in their order. -/
lemma extract_sublist (path content : String) : (extract path content).Sublist (numbered content) := by
  rw [extract]
  split
  · obtain ⟨blocks, h⟩ := exists_divides (· = blockTag.toList) (numbered content)
    rw [Divides.literate_eq h]
    exact h.sublist
  · exact .refl _

/-- A fence with the tag of card source opens the first block that is read. -/
lemma exists_opening_of_cardFence {skipped lines : List SourceLine} {read : List Block}
    (h : ReadsBlocks (skipped ++ lines) read) {line : SourceLine} (hline : line ∈ skipped)
    (hfence : CardFence line) : ∃ b ∈ read, b.opening ∈ skipped := by
  induction skipped with
  | nil => cases hline
  | cons first skipped ih =>
    rw [List.cons_append] at h
    generalize e : skipped ++ lines = rest at h
    cases h with
    | outside hfirst h =>
      subst e
      rcases List.mem_cons.1 hline with rfl | hline
      · obtain ⟨ticks, info, hfence, htag⟩ := hfence
        exact absurd htag (hfirst ticks info hfence)
      · obtain ⟨b, hb, hopening⟩ := ih h hline
        exact ⟨b, hb, List.mem_cons_of_mem first hopening⟩
    | closed => exact ⟨_, List.mem_cons_self, List.mem_cons_self⟩
    | unclosed => exact ⟨_, List.mem_cons_self, List.mem_cons_self⟩

/-- A line in front that opens no block does not matter. -/
lemma readsBlocks_of_not_cardFence {line : SourceLine} {lines : List SourceLine} {read : List Block}
    (h : ReadsBlocks (line :: lines) read) (hline : ¬CardFence line) : ReadsBlocks lines read := by
  generalize e : line :: lines = rest at h
  cases h with
  | nil => cases e
  | outside _ h =>
    cases e
    exact h
  | closed hfence htag =>
    cases e
    exact absurd ⟨_, _, hfence, htag⟩ hline
  | unclosed hfence htag =>
    cases e
    exact absurd ⟨_, _, hfence, htag⟩ hline

/-- Lines in front that open no block do not matter. -/
lemma readsBlocks_of_forall_not_cardFence {skipped lines : List SourceLine} {read : List Block}
    (h : ReadsBlocks (skipped ++ lines) read) (hskipped : ∀ line ∈ skipped, ¬CardFence line) :
    ReadsBlocks lines read := by
  induction skipped with
  | nil => exact h
  | cons line skipped ih =>
    rw [List.forall_mem_cons] at hskipped
    exact ih (readsBlocks_of_not_cardFence h hskipped.1) hskipped.2

/-- A fence with another tag opens no block of card source. -/
lemma IsFence.not_cardFence {line : SourceLine} {ticks : Nat} {info : List Char}
    (hfence : IsFence line.text ticks info) (htag : Text.firstWord info ≠ blockTag.toList) :
    ¬CardFence line := by
  rintro ⟨ticks', info', hfence', htag'⟩
  obtain ⟨rfl, rfl⟩ := hfence.unique hfence'
  exact htag htag'

/-- No other block of the file has a fence with the tag of card source in it. -/
def Undisturbed (blocks : List Block) : Prop :=
  ∀ b ∈ blocks, b.isCards = false → ∀ line ∈ b.tail, ¬CardFence line

/-- A block with another tag is passed over exactly if no line of it opens a block of card source. -/
lemma eq_filter_iff_of_other {b : Block} {lines : List SourceLine} {blocks read : List Block}
    (hb : b.isCards = false) (hopening : ∀ b' ∈ blocks, b'.opening ∈ lines)
    (hdisjoint : ∀ line ∈ b.tail, line ∉ lines) (h : ReadsBlocks (b.tail ++ lines) read)
    (ih : ∀ read', ReadsBlocks lines read' → (read' = blocks.filter (·.isCards) ↔ Undisturbed blocks)) :
    read = (b :: blocks).filter (·.isCards) ↔ Undisturbed (b :: blocks) := by
  rw [List.filter_cons_of_neg (by simp [hb]), Undisturbed, List.forall_mem_cons]
  by_cases hfence : ∀ line ∈ b.tail, ¬CardFence line
  · rw [and_iff_right fun _ => hfence]
    exact ih read (readsBlocks_of_forall_not_cardFence h hfence)
  · refine iff_of_false (fun e => ?_) fun hall => hfence (hall.1 hb)
    -- the first such fence opens a block, and no block of the file starts there
    push Not at hfence
    obtain ⟨line, hline, hcard⟩ := hfence
    obtain ⟨b', hb', hmem⟩ := exists_opening_of_cardFence h hline hcard
    rw [e] at hb'
    exact hdisjoint _ hmem (hopening b' (List.mem_of_mem_filter hb'))

/-- A block of card source in front disturbs nothing. -/
lemma eq_filter_iff_of_cards {b : Block} {blocks read : List Block} (hb : b.isCards = true)
    (ih : read = blocks.filter (·.isCards) ↔ Undisturbed blocks) :
    b :: read = (b :: blocks).filter (·.isCards) ↔ Undisturbed (b :: blocks) := by
  rw [List.filter_cons_of_pos hb, List.cons.injEq, and_iff_right rfl, ih, Undisturbed, Undisturbed,
    List.forall_mem_cons]
  refine (and_iff_right fun hother => ?_).symm
  cases hb.symm.trans hother

/-- The blocks that are read are those of the file with the tag of card source exactly if no such fence
stands in another block. -/
lemma Divides.eq_filter_iff {lines : List SourceLine} {blocks read : List Block}
    (h : HasBlocks lines blocks) (hread : ReadsBlocks lines read) (hnodup : lines.Nodup) :
    read = blocks.filter (·.isCards) ↔ Undisturbed blocks := by
  induction h generalizing read with
  | nil =>
    cases hread
    exact iff_of_true rfl nofun
  | outside hline _ ih =>
    cases hread with
    | outside _ hread => exact ih hread hnodup.of_cons
    | closed hfence => exact absurd trivial (hline _ _ hfence)
    | unclosed hfence => exact absurd trivial (hline _ _ hfence)
  | @closed opening closing ticks info content lines blocks hfence _ hcontent hclosing h ih =>
    let b : Block := ⟨opening, Text.firstWord info, content, some closing⟩
    have htail : content ++ closing :: lines = b.tail ++ lines := by simp [b, Block.tail]
    rw [htail] at hnodup hread
    obtain ⟨-, hlines, hdisjoint⟩ := List.nodup_append.1 hnodup.of_cons
    cases hb : b.isCards with
    | true =>
      obtain ⟨read', hread'⟩ := exists_divides (· = blockTag.toList) lines
      have htag : Text.firstWord info = blockTag.toList := of_decide_eq_true hb
      rw [← htail] at hread
      rw [hread.unique (.closed hfence htag hcontent hclosing hread')]
      exact eq_filter_iff_of_cards hb (ih hread' hlines)
    | false =>
      have htag : Text.firstWord info ≠ blockTag.toList := of_decide_eq_false hb
      refine eq_filter_iff_of_other hb (fun b' => h.opening_mem) ?_ ?_ fun read' hread' => ih hread' hlines
      · exact fun line hline hmem => hdisjoint line hline line hmem rfl
      · exact readsBlocks_of_not_cardFence hread (hfence.not_cardFence htag)
  | @unclosed opening ticks info content hfence _ hcontent =>
    let b : Block := ⟨opening, Text.firstWord info, content, none⟩
    have htail : b.tail ++ [] = content := by simp [b, Block.tail]
    cases hb : b.isCards with
    | true =>
      have htag : Text.firstWord info = blockTag.toList := of_decide_eq_true hb
      rw [hread.unique (.unclosed hfence htag hcontent)]
      exact eq_filter_iff_of_cards hb (iff_of_true rfl nofun)
    | false =>
      have htag : Text.firstWord info ≠ blockTag.toList := of_decide_eq_false hb
      refine eq_filter_iff_of_other hb nofun (fun _ _ => List.not_mem_nil) ?_ fun read' hread' => ?_
      · rw [htail]
        exact readsBlocks_of_not_cardFence hread (hfence.not_cardFence htag)
      · cases hread'
        exact iff_of_true rfl nofun

/-- A literate file is cut into blocks in one way, and read in one way: what is kept stands inside of the
blocks that a fence with the tag of card source opens, wherever that fence stands. These are the blocks
of the file with that tag exactly if none of these fences stands inside of another block or at its end,
and then what is kept is what the blocks with that tag contain. -/
theorem literate_reads_card_blocks (path content : String) (hpath : isLiterate path = true) :
    ∃ blocks read, (∀ blocks', HasBlocks (numbered content) blocks' ↔ blocks' = blocks) ∧
      (∀ read', ReadsBlocks (numbered content) read' ↔ read' = read) ∧
      extract path content = read.flatMap (·.content) ∧
      (read = blocks.filter (·.isCards) ↔ Undisturbed blocks) ∧
      (Undisturbed blocks →
        extract path content = (blocks.filter (·.isCards)).flatMap (·.content)) := by
  obtain ⟨blocks, hblocks⟩ := exists_divides (fun _ => True) (numbered content)
  obtain ⟨read, hread⟩ := exists_divides (· = blockTag.toList) (numbered content)
  have hkept : extract path content = read.flatMap (·.content) := by
    rw [extract, if_pos hpath, Divides.literate_eq hread]
  have hiff := Divides.eq_filter_iff hblocks hread (nodup_numbered content)
  refine ⟨blocks, read, fun _ => hblocks.eq_iff, fun _ => hread.eq_iff, hkept, hiff, fun h => ?_⟩
  rw [hkept, hiff.2 h]

/-- A block with another tag, and then a block of card source with a shorter fence in it. -/
def nestedNotes : String := "```text\nMOV 1\n```\n  ````cards first\nLDA 1\n``` not a close\n````\nMOV 9"

/-- The blocks of `nestedNotes`. -/
def nestedBlocks : List Block :=
  [⟨⟨1, "```text"⟩, "text".toList, [⟨2, "MOV 1"⟩], some ⟨3, "```"⟩⟩,
    ⟨⟨4, "  ````cards first"⟩, "cards".toList, [⟨5, "LDA 1"⟩, ⟨6, "``` not a close"⟩], some ⟨7, "````"⟩⟩]

/-- Of `nestedNotes`, what the block of card source contains is kept. -/
theorem nestedNotes_read :
    isLiterate "notes.Md" = true ∧ HasBlocks (numbered nestedNotes) nestedBlocks ∧
      Undisturbed nestedBlocks ∧
      extract "notes.Md" nestedNotes = [⟨5, "LDA 1"⟩, ⟨6, "``` not a close"⟩] := by
  have hpath : isLiterate "notes.Md" = true := by decide +kernel
  have hlines : numbered nestedNotes = [⟨1, "```text"⟩, ⟨2, "MOV 1"⟩, ⟨3, "```"⟩,
      ⟨4, "  ````cards first"⟩, ⟨5, "LDA 1"⟩, ⟨6, "``` not a close"⟩, ⟨7, "````"⟩, ⟨8, "MOV 9"⟩] := by
    decide +kernel
  have htext : IsFence "```text" 3 "text".toList := fence?_eq_some_iff.1 (by decide +kernel)
  have hcards : IsFence "  ````cards first" 4 "cards first".toList :=
    fence?_eq_some_iff.1 (by decide +kernel)
  have hprose : ∀ ticks info, IsFence "MOV 9" ticks info → ¬True :=
    fun ticks info h => absurd h (fence?_eq_none_iff.1 (by decide +kernel) ticks info)
  have hblocks : HasBlocks (numbered nestedNotes) nestedBlocks := by
    rw [hlines]
    refine @Divides.closed _ ⟨1, "```text"⟩ ⟨3, "```"⟩ 3 _ [⟨2, "MOV 1"⟩] _ _ htext trivial
      (by decide +kernel) (by decide +kernel) ?_
    exact @Divides.closed _ ⟨4, "  ````cards first"⟩ ⟨7, "````"⟩ 4 _ [_, _] _ _ hcards trivial
      (by decide +kernel) (by decide +kernel) (.outside hprose .nil)
  obtain ⟨blocks, read, hunique, -, -, -, hkept⟩ :=
    literate_reads_card_blocks "notes.Md" nestedNotes hpath
  obtain rfl := (hunique _).1 hblocks
  have hundisturbed : Undisturbed nestedBlocks := by unfold Undisturbed; decide +kernel
  exact ⟨hpath, hblocks, hundisturbed, hkept hundisturbed⟩

/-- An example of card source inside of a longer block. -/
def shownFence : String := "````text\n```cards\nADD 1\n```\n````\n"

/-- `shownFence` has one block, which is no card source, and yet a line of it is kept. -/
theorem shownFence_read :
    isLiterate "guide.md" = true ∧
      HasBlocks (numbered shownFence) [⟨⟨1, "````text"⟩, "text".toList,
        [⟨2, "```cards"⟩, ⟨3, "ADD 1"⟩, ⟨4, "```"⟩], some ⟨5, "````"⟩⟩] ∧
      extract "guide.md" shownFence = [⟨3, "ADD 1"⟩] := by
  have hlines : numbered shownFence = [⟨1, "````text"⟩, ⟨2, "```cards"⟩, ⟨3, "ADD 1"⟩, ⟨4, "```"⟩,
      ⟨5, "````"⟩] := by decide +kernel
  have hfence : IsFence "````text" 4 "text".toList := fence?_eq_some_iff.1 (by decide +kernel)
  refine ⟨by decide +kernel, ?_, by decide +kernel⟩
  rw [hlines]
  exact @Divides.closed _ ⟨1, "````text"⟩ ⟨5, "````"⟩ 4 _ [_, _, _] _ _ hfence trivial
    (by decide +kernel) (by decide +kernel) .nil

end Source

end CardMachine
