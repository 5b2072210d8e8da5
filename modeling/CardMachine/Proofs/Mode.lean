import CardMachine.Mode.Basic
import Mathlib.Tactic.Lemma

/-!
# Identifiers, data and the proper form of a mode

A mode leaves the machine as an identifier and data, and comes back through `Mode.ofParts`. Nothing is
lost on the way but an improper form: `ofParts_id_data` gives the mode back in its proper form, and a
mode that `ofParts` made is in its proper form already (`canonical_ofParts`). An identifier survives
being written and read if its space has no colon (`ModeId.parse_text`), and one that was read has none
(`ModeId.colon_not_mem_space_parse`).

A mode under a name that is not the machine's own is always in its proper form
(`eq_other_of_not_reserved`). Its owner counts with the numbers in its data (`Mode.number`).

`Mode.Savable` is what a mode must satisfy to be written without loss: no colon in its space, and no
float in its data that is infinite or not a number.
-/

namespace CardMachine

/-- The nearest word to the value of a word is that word. -/
@[simp] lemma Word.clamp_toInt (w : Word) : Word.clamp w.toInt = w := by
  have lo := w.le_toInt
  have hi := w.toInt_lt
  have e : max (-32768) (min w.toInt 32767) = w.toInt := by omega
  rw [Word.clamp, e, Int16.ofInt_toInt]

namespace ModeId

/-- An identifier is one of the machine's own exactly if it has the path in the machine's space. -/
lemma isOwn_iff {id : ModeId} {path : String} : id.isOwn path = true ↔ id = .own path := by
  obtain ⟨space, path'⟩ := id
  simp [isOwn, own]

/-- The space of a name that was read has no colon. -/
lemma colon_not_mem_space_parse (text : String) : ':' ∉ (parse text).space.toList := by
  rw [parse]
  split
  · simp only [own, ownSpace]
    decide
  · rw [String.toList_ofList]
    intro h
    have hne := List.all_eq_true.1 List.all_takeWhile ':' h
    exact of_decide_eq_true hne rfl

/-- A name whose space has no colon is read back as it was written. -/
lemma parse_text {id : ModeId} (h : ':' ∉ id.space.toList) : parse id.text = id := by
  have hspace : ∀ c ∈ id.space.toList, decide (c ≠ ':') = true := by
    intro c hc
    exact decide_eq_true fun e => h (e ▸ hc)
  have e : id.text.toList = id.space.toList ++ ':' :: id.path.toList := by
    simp [text]
  have hdrop : id.text.toList.dropWhile (· ≠ ':') = ':' :: id.path.toList := by
    rw [e, List.dropWhile_append_of_pos hspace]
    rfl
  have htake : id.text.toList.takeWhile (· ≠ ':') = id.space.toList := by
    rw [e, List.takeWhile_append_of_pos hspace]
    exact List.append_nil _
  simp only [parse, hdrop, htake, String.ofList_toList]

end ModeId

namespace ModeData

/-- Every float of the data is a number. -/
def Finite (data : ModeData) : Prop :=
  ∀ key x, (key, ModeValue.float x) ∈ data.entries → Binary64.isFinite x = true

/-- No data hold no float that is not finite. -/
lemma Finite.empty : ModeData.empty.Finite := by
  intro key x h
  cases h

/-- A value that is no infinite float keeps data finite. -/
lemma Finite.insert {data : ModeData} {key : String} {value : ModeValue} (h : data.Finite)
    (hv : ∀ x, value = .float x → Binary64.isFinite x = true) : (data.insert key value).Finite := by
  intro key' x hmem
  rcases Dict.mem_insert hmem with e | hmem
  · exact hv x (Prod.mk.inj e).2.symm
  · exact h key' x hmem

/-- Entries are inserted one after the other into the list underneath. -/
lemma entries_foldl_insert (entries : List (String × ModeValue)) (data : ModeData) :
    (entries.foldl (fun data e => data.insert e.1 e.2) data).entries =
      entries.foldl (fun acc e => Dict.insert e.1 e.2 acc) data.entries := by
  induction entries generalizing data with
  | nil => rfl
  | cons e rest ih => exact ih (data.insert e.1 e.2)

/-- Data are the data of their own entries. -/
lemma ofList_entries (data : ModeData) : ofList data.entries = data := by
  apply ext
  rw [ofList, entries_foldl_insert]
  exact Dict.foldl_insert data.sorted

/-- A word inserted under a key is read back. -/
lemma short?_insert (data : ModeData) (key : String) (w : Word) :
    (data.insert key (.int (Int64.ofInt w.toInt))).short? key = some w := by
  simp [short?, int?, get?_insert, ModeValue.int?]

end ModeData

namespace Mode

/-- The mode can be written without loss. -/
structure Savable (mode : Mode) : Prop where
  space : ':' ∉ mode.id.space.toList
  data : mode.data.Finite

/-- The executing mode can be saved. -/
lemma savable_executing : executing.Savable :=
  ⟨by decide, .empty⟩

/-- Identifier and data of a mode make its proper form. -/
lemma ofParts_id_data (mode : Mode) : ofParts mode.id mode.data = mode.canonical := by
  cases mode with
  | executing => rfl
  | moveStart v => exact congrArg (fun w => moveStart (w.getD 0)) (ModeData.short?_insert _ _ v)
  | rotateStart v => exact congrArg (fun w => rotateStart (w.getD 0)) (ModeData.short?_insert _ _ v)
  | sleepStart v => exact congrArg (fun w => sleepStart (w.getD 0)) (ModeData.short?_insert _ _ v)
  | other id data => rfl

/-- A mode made from an identifier and data is in its proper form. -/
lemma canonical_ofParts (name : ModeId) (data : ModeData) :
    (ofParts name data).canonical = ofParts name data := by
  rw [ofParts]
  split
  · rfl
  split
  · rfl
  split
  · rfl
  split
  · rfl
  -- what is left has a name that is none of the machine's own
  · simp only [canonical, ofParts, *]
    rfl

/-- The proper form of a proper form is itself. -/
lemma canonical_canonical (mode : Mode) : mode.canonical.canonical = mode.canonical := by
  rw [← ofParts_id_data mode]
  exact canonical_ofParts mode.id mode.data

/-- A mode is the executing one, in its proper form, exactly if it has that name. -/
lemma canonical_isExecuting_iff (mode : Mode) :
    mode.canonical.isExecuting = true ↔ mode.id = .own executingPath := by
  constructor
  · intro h
    rw [← id_canonical]
    generalize mode.canonical = proper at h
    cases proper with
    | executing => rfl
    | _ => cases h
  · intro h
    rw [← ofParts_id_data, h]
    rfl

/-- The names of the machine's own modes. -/
def reserved : List ModeId :=
  [.own executingPath, .own moveStartPath, .own rotateStartPath, .own sleepStartPath]

/-- Under a name that is not the machine's own, a mode is held as that name with its data, and this is
its proper form. -/
lemma eq_other_of_not_reserved (mode : Mode) (h : mode.id ∉ reserved) :
    mode = .other mode.id mode.data ∧ mode.canonical = mode := by
  cases mode with
  | other name data =>
    have not_own (path : String) (hpath : .own path ∈ reserved) : name.isOwn path = false := by
      rw [← Bool.not_eq_true, ModeId.isOwn_iff]
      rintro rfl
      exact h hpath
    refine ⟨rfl, ?_⟩
    simp only [canonical, ofParts, not_own executingPath (by simp [reserved]),
      not_own moveStartPath (by simp [reserved]),
      not_own rotateStartPath (by simp [reserved]),
      not_own sleepStartPath (by simp [reserved])]
    rfl
  | _ => exact absurd (by simp [id, reserved]) h

/-- The number that a mode keeps under a key; without one, or with a text, it is zero. -/
def number (mode : Mode) (key : String) : Int64 := (mode.data.int? key).getD 0

/-- A number under a key is read back. -/
lemma number_insert (name : ModeId) (data : ModeData) (key : String) (v : Int64) :
    (other name (data.insert key (.int v))).number key = v := by
  simp [number, Mode.data, ModeData.int?, ModeData.get?_insert, ModeValue.int?]

/-- A positive number counts down to the one below it. -/
lemma toInt_sub_one {v : Int64} (h : 0 < v.toInt) : (v - 1).toInt = v.toInt - 1 := by
  have hi := v.toInt_lt
  rw [Int64.toInt_sub, Int64.toInt_one]
  exact Int.bmod_eq_of_le (by omega) (by omega)

/-- A request's magnitude is no float. -/
lemma data_ofParts_finite {name : ModeId} {data : ModeData} (h : data.Finite) :
    (ofParts name data).data.Finite := by
  have request (key : String) (w : Word) :
      (ModeData.empty.insert key (.int (Int64.ofInt w.toInt))).Finite :=
    ModeData.Finite.empty.insert fun x e => by cases e
  rw [ofParts]
  split
  · exact .empty
  split
  · exact request _ _
  split
  · exact request _ _
  split
  · exact request _ _
  · exact h

end Mode

end CardMachine
