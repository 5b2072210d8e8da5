import CardMachine.Listing
import CardMachine.Proofs.Branch
import CardMachine.Proofs.Grammar
import CardMachine.Proofs.Order
import CardMachine.Proofs.Reassembly

/-!
# A listing shows a program as it is

The rows of a machine are the instructions of its program, one row each and in order, and the row at the
pointers is the one that is marked (`ShowsProgram`).

A listing is one flat text, and the program and the mark can be told from it. Nothing in a row ends a
line, so the text falls into the lines it was made of (`lines_listing`). Headings start with a dot and
rows do not, so the lines fall into the cards (`flatMap_cons_inj`). How wide an index is does not matter:
rows at one place of two listings have one index, and what is left of them after the index is the text
of an instruction (`Row.eq_of_body_eq`), which can be read back (`Instruction.text_injective`).
-/

namespace CardMachine

/-- An instruction can be told from its text. -/
lemma Instruction.text_injective {i j : Instruction} (h : i.text = j.text) : i = j := by
  have hline : i.line = j.line :=
    Except.ok.inj ((Line.parse_text i).symm.trans (h ▸ Line.parse_text j))
  obtain ⟨opcode, argument, flag⟩ := i
  obtain ⟨opcode', argument', flag'⟩ := j
  simp only [line, written, Line.instruction.injEq, WrittenInstruction.mk.injEq] at hline
  obtain ⟨-, rfl, rfl, hoperand, -⟩ := hline
  cases argument <;> cases argument' <;> cases hoperand <;> rfl

/-- Nothing in the text of an instruction ends a line. -/
lemma Instruction.not_mem_text (i : Instruction) : '\n' ∉ i.text.toList ∧ '\r' ∉ i.text.toList := by
  have hplain {c : Char} (hc : c ∈ i.text.toList) (hspace : c ≠ ' ') : Token.isPart c = true := by
    rcases mem_text hc with rfl | ⟨word, hword, hmem⟩
    · exact absurd rfl hspace
    · exact hword.isPart hmem
  refine ⟨fun h => ?_, fun h => ?_⟩
  · cases hplain h (by decide)
  · cases hplain h (by decide)

/-- Programs with as many cards and the same instructions are equal. -/
lemma Program.ext_instruction? {p q : Program} (hcount : p.cardCount = q.cardCount)
    (h : ∀ c k i, p.instruction? c k = some i ↔ q.instruction? c k = some i) : p = q := by
  have hcard (c : Nat) : p.card c = q.card c := by
    refine List.ext_getElem? fun k => Option.ext fun i => ?_
    exact h c k i
  obtain ⟨cards⟩ := p
  obtain ⟨cards'⟩ := q
  congr 1
  refine List.ext_getElem hcount fun c hc hc' => ?_
  have e := hcard c
  rwa [card, card, List.getD_eq_getElem?_getD, List.getD_eq_getElem?_getD,
    List.getElem?_eq_getElem hc, List.getElem?_eq_getElem hc'] at e

/-- Headings with what stands under each can be told from the list of all of them. -/
lemma flatMap_cons_inj {α : Type} {p : α → Bool} {xs ys : List (α × List α)}
    (hxs : ∀ x ∈ xs, p x.1 = true ∧ ∀ a ∈ x.2, p a = false)
    (hys : ∀ y ∈ ys, p y.1 = true ∧ ∀ a ∈ y.2, p a = false)
    (h : (xs.flatMap fun x => x.1 :: x.2) = ys.flatMap fun y => y.1 :: y.2) : xs = ys := by
  have hstop {zs : List (α × List α)} (hzs : ∀ z ∈ zs, p z.1 = true ∧ ∀ a ∈ z.2, p a = false) :
      ∀ a, (zs.flatMap fun z => z.1 :: z.2).head? = some a → (!p a) = false := by
    intro a ha
    cases zs with
    | nil => cases ha
    | cons z zs =>
      cases ha
      simp [(hzs z List.mem_cons_self).1]
  induction xs generalizing ys with
  | nil =>
    cases ys with
    | nil => rfl
    | cons y ys => cases h
  | cons x xs ih =>
    cases ys with
    | nil => cases h
    | cons y ys =>
      rw [List.forall_mem_cons] at hxs hys
      rw [List.flatMap_cons, List.flatMap_cons, List.cons_append, List.cons_append,
        List.cons.injEq] at h
      obtain ⟨hhead, hrest⟩ := h
      -- what stands under the first heading goes up to the second one
      obtain ⟨htake, hdrop⟩ := span_append (p := (!p ·)) (by simpa using hxs.1.2) (hstop hxs.2)
      obtain ⟨htake', hdrop'⟩ := span_append (p := (!p ·)) (by simpa using hys.1.2) (hstop hys.2)
      have hbody : x.2 = y.2 := by rw [← htake, hrest, htake']
      have htail := ih hxs.2 hys.2 (by rw [← hdrop, hrest, hdrop'])
      rw [Prod.ext hhead hbody, htail]

/-- A list in strict order whose elements cannot be in order is a single element. -/
lemma eq_singleton_of_pairwise {α : Type} {R : α → α → Prop} {l : List α} {a : α}
    (hl : l.Pairwise R) (hR : ∀ x ∈ l, ∀ y ∈ l, ¬ R x y) (ha : a ∈ l) : l = [a] := by
  cases l with
  | nil => cases ha
  | cons x l =>
    cases l with
    | nil => rw [List.mem_singleton.1 ha]
    | cons y l =>
      have hxy : R x y := (List.pairwise_cons.1 hl).1 y List.mem_cons_self
      exact absurd hxy (hR x List.mem_cons_self y (List.mem_cons_of_mem x List.mem_cons_self))

namespace Row

/-- A row as a line, without its ending. -/
def body (r : Row) : String :=
  (if r.isCurrent then "> " else "  ") ++ String.ofList (padded r.index) ++ "  " ++ r.text

/-- A row is its marker, its index and its text, with blanks between them. -/
lemma toList_body (r : Row) :
    r.body.toList =
      (if r.isCurrent then '>' else ' ') :: ' ' :: (padded r.index ++ ' ' :: ' ' :: r.text.toList) := by
  rw [body]
  cases r.isCurrent <;> simp

/-- Two rows with one index that look the same have the same mark and the same text. -/
lemma eq_of_body_eq {r r' : Row} (hindex : r.index = r'.index) (h : r.body = r'.body) :
    r.isCurrent = r'.isCurrent ∧ r.text = r'.text := by
  rw [← String.toList_inj, toList_body, toList_body, hindex, List.cons.injEq, List.cons.injEq,
    List.append_cancel_left_eq, List.cons.injEq, List.cons.injEq, String.toList_inj] at h
  obtain ⟨hmark, -, -, -, htext⟩ := h
  refine ⟨?_, htext⟩
  cases hr : r.isCurrent <;> cases hr' : r'.isCurrent <;> simp_all

/-- A padded index consists of blanks and digits. -/
lemma mem_padded {n : Nat} {c : Char} (h : c ∈ padded n) : c = ' ' ∨ c.isDigit = true := by
  rcases List.mem_append.1 h with h | h
  · exact .inl (List.eq_of_mem_replicate h)
  · exact .inr (Decimal.isDigit_of_mem_nat h)

end Row

namespace Machine

/-- The row of the instruction `i` at position `k` of card `c`. -/
def row (m : Machine) (c k : Nat) (i : Instruction) : Row :=
  ⟨c, k, i.flag, i.opcode, i.argument.text, c = m.card && k = m.ip⟩

lemma text_row (m : Machine) (c k : Nat) (i : Instruction) : (m.row c k i).text = i.text := rfl

/-- A row is marked exactly if the pointers name its place. -/
lemma isCurrent_row {m : Machine} {c k : Nat} {i : Instruction} :
    (m.row c k i).isCurrent = true ↔ c = m.card ∧ k = m.ip := by
  simp [row]

/-- The rows of a card are those of its instructions, in order. -/
lemma getElem?_cardRows (m : Machine) (c k : Nat) :
    (m.cardRows c)[k]? = (m.program.instruction? c k).map (m.row c k) := by
  rw [cardRows, List.getElem?_map, List.getElem?_zipIdx, Option.map_map, Nat.zero_add]
  rfl

/-- Each row of a card shows one of its instructions. -/
lemma mem_cardRows_iff {m : Machine} {c : Nat} {r : Row} :
    r ∈ m.cardRows c ↔ ∃ k i, m.program.instruction? c k = some i ∧ r = m.row c k i := by
  rw [List.mem_iff_getElem?]
  simp only [getElem?_cardRows, Option.map_eq_some_iff, eq_comm (a := r)]

/-- Each row shows an instruction of the program. -/
lemma mem_rows_iff {m : Machine} {r : Row} :
    r ∈ m.rows ↔ ∃ c k i, m.program.instruction? c k = some i ∧ r = m.row c k i := by
  rw [rows, List.mem_flatMap]
  simp only [List.mem_range, mem_cardRows_iff]
  constructor
  · rintro ⟨c, -, h⟩
    exact ⟨c, h⟩
  · rintro ⟨c, k, i, hi, rfl⟩
    exact ⟨c, Program.lt_cardCount_of_instruction? hi, k, i, hi, rfl⟩

/-- The rows show the program: there is one for each instruction, they are ordered by card and then by
index, and the one that is marked is that of the current instruction. -/
structure ShowsProgram (m : Machine) (rows : List Row) : Prop where
  order : rows.Pairwise fun r r' => r.card < r'.card ∨ r.card = r'.card ∧ r.index < r'.index
  instruction {r : Row} (h : r ∈ rows) :
    ∃ i, m.program.instruction? r.card r.index = some i ∧ r.text = i.text
  row {c k : Nat} {i : Instruction} (h : m.program.instruction? c k = some i) :
    ∃ r ∈ rows, r.card = c ∧ r.index = k
  marked {i : Instruction} (h : m.currentInstruction? = some i) :
    ∃ r, rows.filter (·.isCurrent) = [r] ∧ r.card = m.card ∧ r.index = m.ip ∧ r.text = i.text
  unmarked (h : m.currentInstruction? = none) : rows.filter (·.isCurrent) = []

/-- Rows come in the order of cards, and on a card in the order of positions. -/
lemma pairwise_rows (m : Machine) :
    m.rows.Pairwise fun r r' => r.card < r'.card ∨ r.card = r'.card ∧ r.index < r'.index := by
  rw [rows, List.pairwise_flatMap]
  refine ⟨fun c _ => ?_, List.pairwise_lt_range.imp fun {c c'} hlt r hr r' hr' => ?_⟩
  · rw [cardRows, List.pairwise_map]
    exact (pairwise_snd_zipIdx _).imp fun hlt => .inr ⟨rfl, hlt⟩
  · obtain ⟨k, i, -, rfl⟩ := mem_cardRows_iff.1 hr
    obtain ⟨k', i', -, rfl⟩ := mem_cardRows_iff.1 hr'
    exact .inl hlt

/-- The rows show the program. -/
lemma showsProgram_rows (m : Machine) : m.ShowsProgram m.rows := by
  have hmarked {r : Row} (h : r ∈ m.rows.filter (·.isCurrent)) :
      ∃ i, m.currentInstruction? = some i ∧ r = m.row m.card m.ip i := by
    obtain ⟨hr, hcurrent⟩ := List.mem_filter.1 h
    obtain ⟨c, k, i, hi, rfl⟩ := mem_rows_iff.1 hr
    obtain ⟨rfl, rfl⟩ := isCurrent_row.1 hcurrent
    exact ⟨i, hi, rfl⟩
  constructor
  case order => exact pairwise_rows m
  case instruction =>
    intro r h
    obtain ⟨c, k, i, hi, rfl⟩ := mem_rows_iff.1 h
    exact ⟨i, hi, rfl⟩
  case row =>
    intro c k i h
    exact ⟨m.row c k i, mem_rows_iff.2 ⟨c, k, i, h, rfl⟩, rfl, rfl⟩
  case marked =>
    intro i h
    refine ⟨m.row m.card m.ip i, eq_singleton_of_pairwise ((pairwise_rows m).filter _) ?_ ?_, rfl, rfl, rfl⟩
    · -- two marked rows would have one card and one index
      intro r hr r' hr'
      obtain ⟨_, -, rfl⟩ := hmarked hr
      obtain ⟨_, -, rfl⟩ := hmarked hr'
      simp [row]
    · exact List.mem_filter.2 ⟨mem_rows_iff.2 ⟨_, _, i, h, rfl⟩, isCurrent_row.2 ⟨rfl, rfl⟩⟩
  case unmarked =>
    intro h
    refine List.eq_nil_iff_forall_not_mem.2 fun r hr => ?_
    obtain ⟨i, hi, -⟩ := hmarked hr
    rw [h] at hi
    cases hi

/-- The heading of a card and the rows under it, line by line. -/
def block (m : Machine) (c : Nat) : String × List String :=
  (".card " ++ String.ofList (Decimal.nat c), (m.cardRows c).map Row.body)

/-- The cards of a listing. -/
def blocks (m : Machine) : List (String × List String) :=
  (List.range m.program.cardCount).map m.block

/-- There is a block for each card. -/
lemma getElem?_blocks {m : Machine} {c : Nat} (h : c < m.program.cardCount) :
    m.blocks[c]? = some (m.block c) := by
  rw [blocks, List.getElem?_map, List.getElem?_range h]
  rfl

/-- The listing is its blocks, line by line, with a line feed after each line. -/
lemma listing_eq (m : Machine) :
    m.listing = String.join ((m.blocks.flatMap fun b => b.1 :: b.2).map (· ++ "\n")) := by
  have hrow (r : Row) : r.line = r.body ++ "\n" := rfl
  rw [← String.toList_inj]
  simp [listing, cardListing, blocks, block, String.toList_join, List.flatMap_map, List.map_flatMap,
    List.flatMap_assoc, Function.comp_def, hrow]

/-- A line of a listing. Headings start with a dot. -/
lemma block_lines {m : Machine} {b : String × List String} (h : b ∈ m.blocks) :
    b.1.toList.head? = some '.' ∧ ∀ line ∈ b.2, line.toList.head? ≠ some '.' := by
  obtain ⟨c, -, rfl⟩ := List.mem_map.1 h
  refine ⟨by simp [block], fun line hline => ?_⟩
  obtain ⟨r, -, rfl⟩ := List.mem_map.1 hline
  rw [Row.toList_body]
  cases r.isCurrent <;> simp

/-- Nothing in a line of a listing ends a line. -/
lemma not_mem_line {m : Machine} {line : String} (h : line ∈ m.blocks.flatMap fun b => b.1 :: b.2) :
    line ≠ "" ∧ '\n' ∉ line.toList ∧ '\r' ∉ line.toList := by
  obtain ⟨b, hb, hline⟩ := List.mem_flatMap.1 h
  obtain ⟨c, -, rfl⟩ := List.mem_map.1 hb
  have hdigits {n : Nat} {x : Char} (hx : x.isDigit = false) : x ∉ Decimal.nat n := by
    intro h
    rw [Decimal.isDigit_of_mem_nat h] at hx
    cases hx
  have hpadded {n : Nat} {x : Char} (hspace : x ≠ ' ') (hx : x.isDigit = false) : x ∉ Row.padded n := by
    intro h
    rcases Row.mem_padded h with rfl | h
    · exact hspace rfl
    · rw [h] at hx; cases hx
  rcases List.mem_cons.1 hline with rfl | hline
  · simp [block, ← String.toList_inj, hdigits (x := '\n') rfl, hdigits (x := '\r') rfl]
  · obtain ⟨r, hr, rfl⟩ := List.mem_map.1 hline
    obtain ⟨k, i, -, rfl⟩ := mem_cardRows_iff.1 hr
    obtain ⟨hn, hr⟩ := i.not_mem_text
    rw [ne_eq, ← String.toList_inj, Row.toList_body, text_row]
    cases (m.row c k i).isCurrent <;>
      simp [hn, hr, hpadded (x := '\n') (by decide) rfl, hpadded (x := '\r') (by decide) rfl]

/-- A listing falls into the lines it is made of. -/
lemma lines_listing (m : Machine) : Text.lines m.listing = m.blocks.flatMap fun b => b.1 :: b.2 :=
  IsText.lines_eq (.inl m.listing_eq) fun _ => not_mem_line

/-- The cards of a listing can be told from its text. -/
lemma blocks_eq_of_listing_eq {m m' : Machine} (h : m.listing = m'.listing) : m.blocks = m'.blocks := by
  have hp {m : Machine} : ∀ b ∈ m.blocks, decide (b.1.toList.head? = some '.') = true ∧
      ∀ line ∈ b.2, decide (line.toList.head? = some '.') = false := by
    intro b hb
    obtain ⟨hheading, hrows⟩ := block_lines hb
    exact ⟨decide_eq_true hheading, fun line hline => decide_eq_false (hrows line hline)⟩
  refine flatMap_cons_inj (p := fun line : String => decide (line.toList.head? = some '.')) hp hp ?_
  rw [← lines_listing, h, lines_listing]

/-- What stands in one listing stands in every other with the same text, and so does the mark. -/
lemma instruction?_of_listing_eq {m m' : Machine} (h : m.listing = m'.listing) {c k : Nat}
    {i : Instruction} (hi : m.program.instruction? c k = some i) :
    m'.program.instruction? c k = some i ∧ (c = m.card ∧ k = m.ip ↔ c = m'.card ∧ k = m'.ip) := by
  have hblocks := blocks_eq_of_listing_eq h
  have hcount : m.program.cardCount = m'.program.cardCount := by
    simpa [blocks] using congrArg List.length hblocks
  have hc : c < m.program.cardCount := Program.lt_cardCount_of_instruction? hi
  have hblock : m.block c = m'.block c := by
    have e := congrArg (·[c]?) hblocks
    simp only [getElem?_blocks hc, getElem?_blocks (hcount ▸ hc)] at e
    exact Option.some.inj e
  have hrow := congrArg (·[k]?) (congrArg Prod.snd hblock)
  simp only [block, List.getElem?_map, getElem?_cardRows, hi, Option.map_some] at hrow
  rw [Option.map_map] at hrow
  obtain ⟨i', hi', hbody⟩ := Option.map_eq_some_iff.1 hrow.symm
  have hindex : (m'.row c k i').index = (m.row c k i).index := rfl
  obtain ⟨hmark, htext⟩ := Row.eq_of_body_eq hindex hbody
  obtain rfl : i' = i := Instruction.text_injective htext
  refine ⟨hi', ?_⟩
  rw [← isCurrent_row (i := i'), ← isCurrent_row (i := i'), hmark]

/-- Machines with one listing have one program. -/
lemma program_eq_of_listing_eq {m m' : Machine} (h : m.listing = m'.listing) :
    m.program = m'.program := by
  have hblocks := blocks_eq_of_listing_eq h
  refine Program.ext_instruction? (by simpa [blocks] using congrArg List.length hblocks) ?_
  intro c k i
  exact ⟨fun hi => (instruction?_of_listing_eq h hi).1, fun hi => (instruction?_of_listing_eq h.symm hi).1⟩

/-- The rows of a listing show the program, and its text is that of no other program, and of no other
mark. -/
theorem listing_complete_and_lossless (m : Machine) :
    m.ShowsProgram m.rows ∧
    ∀ m' : Machine, m.listing = m'.listing →
      m.program = m'.program ∧
      (m.currentInstruction? = none ∧ m'.currentInstruction? = none ∨
        ∃ i, m.currentInstruction? = some i ∧ m'.currentInstruction? = some i ∧
          m.card = m'.card ∧ m.ip = m'.ip) := by
  refine ⟨showsProgram_rows m, fun m' h => ⟨program_eq_of_listing_eq h, ?_⟩⟩
  cases hcurrent : m.currentInstruction? with
  | some i =>
    obtain ⟨hi, hmark⟩ := instruction?_of_listing_eq h hcurrent
    obtain ⟨hcard, hip⟩ := hmark.1 ⟨rfl, rfl⟩
    refine .inr ⟨i, rfl, ?_, Fin.ext hcard, Fin.ext hip⟩
    rw [currentInstruction?, ← hcard, ← hip]
    exact hi
  | none =>
    refine .inl ⟨rfl, ?_⟩
    cases hcurrent' : m'.currentInstruction? with
    | none => rfl
    | some i =>
      obtain ⟨hi, hmark⟩ := instruction?_of_listing_eq h.symm hcurrent'
      obtain ⟨hcard, hip⟩ := hmark.1 ⟨rfl, rfl⟩
      rw [hcard, hip] at hi
      rw [currentInstruction?, hi] at hcurrent
      cases hcurrent

/-- A machine with an empty card and a card of two instructions. -/
def lister (card ip : Pointer) : Machine :=
  { ip, card, program := ⟨[[], [⟨.lda, .literal (-3), none⟩, ⟨.add, .register .d, some .pos⟩]]⟩ }

/-- The listing of `lister` has its mark where the pointers are. Two places where there is no instruction
look the same in it, and no others do. -/
theorem lister_listed :
    (lister 1 1).listing = ".card 0\n.card 1\n   0  LDA -3\n>  1  POS ADD D\n" ∧
    (∃ r, (lister 1 1).rows.filter (·.isCurrent) = [r] ∧ r.card = (lister 1 1).card ∧
      r.index = (lister 1 1).ip ∧ r.text = "POS ADD D") ∧
    (lister 1 7).listing = (lister 0 0).listing ∧
    ((lister 1 7).program = (lister 0 0).program ∧
      ((lister 1 7).currentInstruction? = none ∧ (lister 0 0).currentInstruction? = none ∨
        ∃ i, (lister 1 7).currentInstruction? = some i ∧ (lister 0 0).currentInstruction? = some i ∧
          (lister 1 7).card = (lister 0 0).card ∧ (lister 1 7).ip = (lister 0 0).ip)) := by
  have hsame : (lister 1 7).listing = (lister 0 0).listing := by decide +kernel
  exact ⟨by decide +kernel, (listing_complete_and_lossless (lister 1 1)).1.marked rfl, hsame,
    (listing_complete_and_lossless (lister 1 7)).2 _ hsame⟩

end Machine

end CardMachine
