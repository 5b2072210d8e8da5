import CardMachine.Scan
import Mathlib.Tactic.Lemma

/-!
# The scan is in order

`Card.select` walks a list of positions. Here its three answers are described without that list:
`FirstEligible card start c k i` says that the instruction `i`, at position `k`, is the first one
that may run when the positions are tried in the order `start`, `start + 1`, .. modulo the length of
the card. The lemmas `select_eq_*_iff` say that the scan answers exactly so, and
`FirstEligible.unique` that there is at most one such position.

Who comes first can also be said without an order of trying: nobody who may run is nearer, going round
from the start (`distance`, `firstEligible_iff`). A flag asks `C` for a sign (`Flag.Asks`,
`Instruction.eligible_iff`) and looks at nothing else of it (`Flag.holds_eq`). Each sign is asked for by
one flag, so a card with all three flags on it has something to run.
-/

namespace CardMachine

/-- What a flag asks of `C`. -/
def Flag.Asks : Flag → Int → Prop
  | .neg, c => c < 0
  | .equ, c => c = 0
  | .pos, c => 0 < c

/-- A flag holds exactly for the values of `C` that it asks for. -/
lemma Flag.holds_iff {f : Flag} {c : Word} : f.holds c = true ↔ f.Asks c.toInt := by
  cases f <;> simp [holds, Asks]

/-- An instruction may run exactly if it has no flag, or one that asks for such a `C`. -/
lemma Instruction.eligible_iff {i : Instruction} {c : Word} :
    i.eligible c = true ↔ ∀ f, i.flag = some f → f.Asks c.toInt := by
  rw [eligible]
  cases i.flag with
  | none => simp
  | some f =>
    rw [Flag.holds_iff]
    constructor
    · rintro h _ ⟨⟩
      exact h
    · intro h
      exact h f rfl

/-- A flag asks for the sign that it is saved as. -/
lemma Flag.holds_eq (c : Word) (f : Flag) : f.holds c = decide (c.toInt.sign = f.byte) := by
  cases f with
  | neg => simp [holds, byte, Int.sign_eq_neg_one_iff_neg]
  | equ => simp [holds, byte, Int.sign_eq_zero_iff_zero]
  | pos => simp [holds, byte, Int.sign_eq_one_iff_pos]

/-- Some flag asks for the sign of `c`. -/
lemma Flag.exists_holds (c : Word) : ∃ f : Flag, f.holds c = true := by
  rcases Int.sign_trichotomy c.toInt with h | h | h
  · exact ⟨.pos, by rw [holds_eq, h]; rfl⟩
  · exact ⟨.equ, by rw [holds_eq, h]; rfl⟩
  · exact ⟨.neg, by rw [holds_eq, h]; rfl⟩

/-- Whether an instruction may run depends on `C` through its sign. -/
lemma Instruction.eligible_congr {c c' : Word} (h : c.toInt.sign = c'.toInt.sign) (i : Instruction) :
    i.eligible c = i.eligible c' := by
  rw [eligible, eligible]
  cases i.flag with
  | none => rfl
  | some f => exact (f.holds_eq c).trans (h ▸ (f.holds_eq c').symm)

namespace Card

/-- Going round `card` from `start`, the first instruction that may run while `C` holds `c` is `i`, at
position `k`. -/
def FirstEligible (card : Card) (start : Nat) (c : Word) (k : Nat) (i : Instruction) : Prop :=
  ∃ d < card.length, k = (start + d) % card.length ∧ card[k]? = some i ∧ i.eligible c = true ∧
    ∀ e < d, ∀ j, card[(start + e) % card.length]? = some j → j.eligible c = false

/-- A lap meets each position of the card once. -/
lemma length_lap (card : Card) (start : Nat) : (lap card start).length = card.length := by
  rw [lap, List.length_append, List.length_drop, List.length_take, List.length_zipIdx]
  omega

/-- The `d`-th stop of a lap is the position `d` after the start, modulo the length of the card. -/
lemma getElem?_lap (card : Card) (start : Nat) {d : Nat} (h : d < card.length) :
    (lap card start)[d]? =
      (card[(start + d) % card.length]?).map (·, (start + d) % card.length) := by
  have hs : start % card.length < card.length := Nat.mod_lt _ (by omega)
  have hmod : (start + d) % card.length = (start % card.length + d) % card.length := by
    rw [Nat.mod_add_mod]
  rw [lap, hmod]
  generalize start % card.length = s at hs
  -- a lap is the rest of the card from `s`, then its beginning
  by_cases hd : s + d < card.length
  · rw [Nat.mod_eq_of_lt hd, List.getElem?_append_left (by simp; omega), List.getElem?_drop,
      List.getElem?_zipIdx]
    simp
  · have hwrap : (s + d) % card.length = s + d - card.length := by
      rw [Nat.mod_eq_sub_mod (by omega), Nat.mod_eq_of_lt (by omega)]
    rw [hwrap, List.getElem?_append_right (by simp; omega), List.length_drop, List.length_zipIdx,
      List.getElem?_take_of_lt (by omega), List.getElem?_zipIdx]
    have e : d - (card.length - s) = s + d - card.length := by omega
    rw [e]
    simp

/-- The search along a lap finds the first position whose instruction may run. -/
lemma find?_lap_eq_some_iff {card : Card} {start k : Nat} {c : Word} {i : Instruction} :
    (lap card start).find? (·.1.eligible c) = some (i, k) ↔ FirstEligible card start c k i := by
  rw [List.find?_eq_some_iff_getElem]
  constructor
  · rintro ⟨hel, d, hd, hi, hbefore⟩
    rw [length_lap] at hd
    have hstop := getElem?_lap card start hd
    rw [List.getElem?_eq_getElem (by rwa [length_lap]), hi] at hstop
    obtain ⟨i', hi', e⟩ := Option.map_eq_some_iff.1 hstop.symm
    cases e
    refine ⟨d, hd, rfl, hi', hel, ?_⟩
    intro e he j hj
    have hstop' := getElem?_lap card start (show e < card.length by omega)
    rw [hj, List.getElem?_eq_getElem (by rw [length_lap]; omega)] at hstop'
    have hne := hbefore e he
    rw [Option.some.inj hstop'] at hne
    simpa using hne
  · rintro ⟨d, hd, rfl, hi, hel, hbefore⟩
    refine ⟨hel, d, by rwa [length_lap], ?_, ?_⟩
    · have hstop := getElem?_lap card start hd
      rw [hi, List.getElem?_eq_getElem (by rwa [length_lap])] at hstop
      exact Option.some.inj hstop
    · intro e he
      have hpos : (start + e) % card.length < card.length := Nat.mod_lt _ (by omega)
      have hstop := getElem?_lap card start (show e < card.length by omega)
      rw [List.getElem?_eq_getElem hpos, List.getElem?_eq_getElem (by rw [length_lap]; omega)] at hstop
      rw [Option.some.inj hstop]
      simpa using hbefore e he _ (List.getElem?_eq_getElem hpos)

/-- A position that the scan can find is on the card. -/
lemma FirstEligible.lt {card : Card} {start k : Nat} {c : Word} {i : Instruction}
    (h : FirstEligible card start c k i) : k < card.length := by
  obtain ⟨d, hd, rfl, _⟩ := h
  exact Nat.mod_lt _ (by omega)

/-- At most one position comes first. -/
lemma FirstEligible.unique {card : Card} {start k k' : Nat} {c : Word} {i i' : Instruction}
    (h : FirstEligible card start c k i) (h' : FirstEligible card start c k' i') :
    k = k' ∧ i = i' := by
  have e := (find?_lap_eq_some_iff.2 h).symm.trans (find?_lap_eq_some_iff.2 h')
  cases e
  exact ⟨rfl, rfl⟩

/-- The scan reports an empty card exactly if the card is empty. -/
lemma select_eq_emptyCard_iff {card : Card} {start : Nat} {c : Word} :
    select card start c = .emptyCard ↔ card = [] := by
  rw [select]
  split
  case isTrue h => simpa using h
  case isFalse h =>
    have hne : card ≠ [] := by simpa using h
    split <;> simp [hne]

/-- The scan selects exactly the first instruction that may run. -/
lemma select_eq_selected_iff {card : Card} {start k : Nat} {c : Word} {i : Instruction} :
    select card start c = .selected k i ↔ FirstEligible card start c k i := by
  rw [select]
  split
  case isTrue h =>
    have hnil : card = [] := by simpa using h
    subst hnil
    constructor
    · nofun
    · intro hf; exact absurd hf.lt (by simp)
  case isFalse h =>
    rw [← find?_lap_eq_some_iff]
    split
    case h_1 i' k' hfind => rw [hfind]; simp [and_comm]
    case h_2 hfind => rw [hfind]; simp

/-- The scan finds nothing exactly if there are instructions and none of them may run. -/
lemma select_eq_noneEligible_iff {card : Card} {start : Nat} {c : Word} :
    select card start c = .noneEligible ↔ card ≠ [] ∧ ∀ i ∈ card, i.eligible c = false := by
  rw [select]
  split
  case isTrue h =>
    have hnil : card = [] := by simpa using h
    simp [hnil]
  case isFalse h =>
    have hne : card ≠ [] := by simpa using h
    -- the order of the lap does not matter when nothing is found
    have hmem : ∀ x, x ∈ lap card start ↔ x ∈ card.zipIdx := by
      intro x
      rw [lap, List.mem_append, or_comm, ← List.mem_append, List.take_append_drop]
    split
    case h_1 i k hfind =>
      obtain ⟨hel, -⟩ := List.find?_eq_some_iff_append.1 hfind
      have hi := (hmem _).1 (List.mem_of_find?_eq_some hfind)
      constructor
      · nofun
      · intro hall
        have hno := hall.2 i (List.fst_mem_of_mem_zipIdx hi)
        simp [hno] at hel
    case h_2 hfind =>
      rw [List.find?_eq_none] at hfind
      refine ⟨fun _ => ⟨hne, ?_⟩, fun _ => rfl⟩
      intro i hi
      obtain ⟨k, hk, rfl⟩ := List.getElem_of_mem hi
      have hx := hfind (card[k], k) ((hmem _).2 (List.mk_mem_zipIdx_iff_getElem?.2 (by simp)))
      simpa using hx

/-- How far position `k` is ahead of `start`, going round a card of `len` positions. -/
def distance (len start k : Nat) : Nat := (k + (len - start % len)) % len

/-- No position is a whole lap away. -/
lemma distance_lt {len : Nat} (h : 0 < len) (start k : Nat) : distance len start k < len :=
  Nat.mod_lt _ h

/-- The distance of a position is the way to it. -/
lemma add_distance {len k : Nat} (h : k < len) (start : Nat) :
    (start + distance len start k) % len = k := by
  have hs : start % len < len := Nat.mod_lt _ (by omega)
  calc (start + distance len start k) % len
      = (start % len + (k + (len - start % len))) % len := by
        rw [distance, Nat.add_mod_mod, Nat.mod_add_mod]
    _ = (k + len) % len := by rw [show start % len + (k + (len - start % len)) = k + len by omega]
    _ = k := by rw [Nat.add_mod_right, Nat.mod_eq_of_lt h]

/-- A way of less than a round is the distance of the position it leads to. -/
lemma distance_add {len d : Nat} (h : d < len) (start : Nat) :
    distance len start ((start + d) % len) = d := by
  have hs : start % len < len := Nat.mod_lt _ (by omega)
  calc distance len start ((start + d) % len)
      = (start % len + d + (len - start % len)) % len := by
        rw [distance, Nat.mod_add_mod, Nat.add_assoc, Nat.add_assoc, Nat.mod_add_mod]
    _ = (d + len) % len := by rw [show start % len + d + (len - start % len) = d + len by omega]
    _ = d := by rw [Nat.add_mod_right, Nat.mod_eq_of_lt h]

/-- First is who may run when nobody nearer may. -/
lemma firstEligible_iff {card : Card} {start k : Nat} {c : Word} {i : Instruction} :
    FirstEligible card start c k i ↔
      card[k]? = some i ∧ i.eligible c = true ∧
        ∀ j i', card[j]? = some i' → distance card.length start j < distance card.length start k →
          i'.eligible c = false := by
  constructor
  · rintro ⟨d, hd, rfl, hi, hel, hbefore⟩
    refine ⟨hi, hel, fun j i' hj hnear => ?_⟩
    rw [distance_add hd] at hnear
    have hlt : j < card.length := (List.getElem?_eq_some_iff.1 hj).1
    exact hbefore _ hnear i' ((add_distance hlt start).symm ▸ hj)
  · rintro ⟨hi, hel, hbefore⟩
    have hk : k < card.length := (List.getElem?_eq_some_iff.1 hi).1
    have hd : distance card.length start k < card.length := distance_lt (by omega) start k
    refine ⟨_, hd, (add_distance hk start).symm, hi, hel, fun e he j hj => ?_⟩
    exact hbefore _ j hj (by rwa [distance_add (by omega)])

/-- Where a lap starts matters modulo the length of the card. -/
lemma lap_congr {card : Card} {start start' : Nat} (h : start % card.length = start' % card.length) :
    lap card start = lap card start' := by
  rw [lap, lap, h]

/-- What the scan finds depends on who may run and on the lap. -/
lemma select_congr {card : Card} {start start' : Nat} {c c' : Word}
    (hlap : lap card start = lap card start')
    (hel : ∀ i : Instruction, i.eligible c = i.eligible c') :
    select card start c = select card start' c' := by
  rw [select, select, hlap, funext fun x : Instruction × Nat => hel x.1]

/-- Something of a card may run if an instruction has no flag, or if there is one for every sign. -/
lemma exists_eligible {card : Card} (c : Word)
    (h : (∃ i ∈ card, i.flag = none) ∨ ∀ f : Flag, ∃ i ∈ card, i.flag = some f) :
    ∃ i ∈ card, i.eligible c = true := by
  rcases h with ⟨i, hi, hflag⟩ | h
  · exact ⟨i, hi, by rw [Instruction.eligible, hflag]⟩
  · obtain ⟨f, hf⟩ := Flag.exists_holds c
    obtain ⟨i, hi, hflag⟩ := h f
    exact ⟨i, hi, by rw [Instruction.eligible, hflag]; exact hf⟩

/-- An instruction may run if it has no flag, or one that asks for the sign of `C`. The scan tells an empty
card, the nearest instruction that may run, or that none may; wherever it starts and whatever `C` holds, it tells exactly one of them and only what is so. It cannot fail on a card
with an instruction that has no flag, or with one for every flag, and it sees of its start only the
position on the card, and of `C` only the sign. -/
theorem scan_finds_nearest (card : Card) (start : Nat) (c : Word) :
    (∀ i : Instruction, i.eligible c = true ↔ ∀ f, i.flag = some f → f.Asks c.toInt) ∧
    (select card start c = .emptyCard ↔ card = []) ∧
    (∀ k i, select card start c = .selected k i ↔
      card[k]? = some i ∧ i.eligible c = true ∧
        ∀ j i', card[j]? = some i' → distance card.length start j < distance card.length start k →
          i'.eligible c = false) ∧
    (select card start c = .noneEligible ↔ card ≠ [] ∧ ∀ i ∈ card, i.eligible c = false) ∧
    ((∃ i ∈ card, i.flag = none) ∨ (∀ f : Flag, ∃ i ∈ card, i.flag = some f) →
      select card start c ≠ .noneEligible) ∧
    (∀ start', start % card.length = start' % card.length →
      select card start c = select card start' c) ∧
    ∀ c' : Word, c.toInt.sign = c'.toInt.sign → select card start c = select card start c' := by
  refine ⟨fun i => i.eligible_iff, select_eq_emptyCard_iff, fun k i => select_eq_selected_iff.trans firstEligible_iff,
    select_eq_noneEligible_iff, fun h hnone => ?_, fun start' h => ?_, fun c' h => ?_⟩
  · obtain ⟨i, hi, hel⟩ := exists_eligible c h
    have hno := (select_eq_noneEligible_iff.1 hnone).2 i hi
    rw [hel] at hno
    cases hno
  · exact select_congr (lap_congr h) fun _ => rfl
  · exact select_congr rfl (Instruction.eligible_congr h)

/-- One instruction for every sign. -/
def signpost : Card :=
  [⟨.add, .literal 1, some .neg⟩, ⟨.sub, .literal 1, some .pos⟩, ⟨.mul, .literal 0, some .equ⟩]

/-- On `signpost` there is something to run for every value of `C`, and what it is goes by the sign. A scan
from 8 starts at position 2 and goes round as far as it has to. -/
theorem signpost_scanned :
    (∀ f : Flag, ∃ i ∈ signpost, i.flag = some f) ∧
    (∀ c, select signpost 8 c ≠ .noneEligible) ∧
    8 % signpost.length = 2 % signpost.length ∧ (-7 : Word).toInt.sign = (-999 : Word).toInt.sign ∧
    select signpost 8 (-7) = select signpost 2 (-7) ∧
    select signpost 8 (-7) = select signpost 8 (-999) ∧
    select signpost 8 (-7) = .selected 0 ⟨.add, .literal 1, some .neg⟩ ∧
    select signpost 8 0 = .selected 2 ⟨.mul, .literal 0, some .equ⟩ ∧
    select signpost 8 7 = .selected 1 ⟨.sub, .literal 1, some .pos⟩ := by
  have hflags : ∀ f : Flag, ∃ i ∈ signpost, i.flag = some f := by
    intro f
    cases f <;> decide
  have hmod : 8 % signpost.length = 2 % signpost.length := by decide
  have hsign : (-7 : Word).toInt.sign = (-999 : Word).toInt.sign := by decide
  obtain ⟨-, -, -, -, -, hstart, hc⟩ := scan_finds_nearest signpost 8 (-7)
  refine ⟨hflags, fun c => ?_, hmod, hsign, hstart 2 hmod, hc (-999) hsign, ?_⟩
  · obtain ⟨-, -, -, -, hruns, -, -⟩ := scan_finds_nearest signpost 8 c
    exact hruns (.inr hflags)
  · decide

end Card

end CardMachine
