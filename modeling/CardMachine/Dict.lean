/-!
# Dictionaries with text keys

A dictionary is kept as the list of its entries, the keys in increasing order (by code point, which
is also the order of their UTF-8 bytes) and each key once. A sorted list is determined by what it
maps, so two dictionaries with the same entries are equal.
-/

namespace CardMachine.Dict

variable {α : Type}

/-- The keys increase. -/
def Sorted (entries : List (String × α)) : Prop :=
  entries.Pairwise (·.1 < ·.1)

/-- Maps `key` to `value`, in place of what it was mapped to. -/
def insert (key : String) (value : α) : List (String × α) → List (String × α)
  | [] => [(key, value)]
  | (k, v) :: rest =>
    if key < k then (key, value) :: (k, v) :: rest
    else if k < key then (k, v) :: insert key value rest
    else (key, value) :: rest

/-- A key of the new list is the new key or an old one. -/
theorem mem_insert {key : String} {value : α} {entries : List (String × α)} {e : String × α}
    (h : e ∈ insert key value entries) : e = (key, value) ∨ e ∈ entries := by
  fun_induction insert key value entries with
  | case1 => simpa using h
  | case2 k v rest hlt => simpa using h
  | case3 k v rest hlt hgt ih =>
    rcases List.mem_cons.1 h with rfl | h
    · simp
    · rcases ih h with rfl | h <;> simp_all
  | case4 k v rest hlt hgt =>
    rcases List.mem_cons.1 h with rfl | h <;> simp_all

/-- Insertion keeps the keys in order. -/
theorem Sorted.insert {entries : List (String × α)} (h : Sorted entries) (key : String)
    (value : α) : Sorted (Dict.insert key value entries) := by
  unfold Sorted at h ⊢
  fun_induction Dict.insert key value entries with
  | case1 => simp
  | case2 k v rest hlt =>
    have h' := List.pairwise_cons.1 h
    refine List.pairwise_cons.2 ⟨fun e he => ?_, h⟩
    rcases List.mem_cons.1 he with rfl | he
    · exact hlt
    · exact String.lt_trans hlt (h'.1 e he)
  | case3 k v rest hlt hgt ih =>
    have h' := List.pairwise_cons.1 h
    refine List.pairwise_cons.2 ⟨fun e he => ?_, ih h'.2⟩
    rcases mem_insert he with rfl | he
    · exact hgt
    · exact h'.1 e he
  | case4 k v rest hlt hgt =>
    have h' := List.pairwise_cons.1 h
    have hk : k = key := String.le_antisymm (Std.not_lt.1 hlt) (Std.not_lt.1 hgt)
    exact List.pairwise_cons.2 ⟨fun e he => hk ▸ h'.1 e he, h'.2⟩

/-- Looking up a key in a list that starts with an entry. -/
theorem lookup_cons (key k : String) (v : α) (rest : List (String × α)) :
    List.lookup key ((k, v) :: rest) = if key = k then some v else List.lookup key rest := by
  rw [List.lookup_cons]
  by_cases h : key = k
  · simp [h]
  · simp [h, beq_false_of_ne h]

/-- A key reads back what was inserted, and every other key what it had. -/
theorem lookup_insert (key other : String) (value : α) (entries : List (String × α)) :
    (insert key value entries).lookup other =
      if other = key then some value else entries.lookup other := by
  fun_induction insert key value entries with
  | case1 => rw [lookup_cons]
  | case2 k v rest hlt => rw [lookup_cons]
  | case3 k v rest hlt hgt ih =>
    have hk : k ≠ key := fun h => String.lt_irrefl key (h ▸ hgt)
    rw [lookup_cons, lookup_cons, ih]
    by_cases h : other = k
    · subst h; simp [hk]
    · simp [h]
  | case4 k v rest hlt hgt =>
    have hk : k = key := String.le_antisymm (Std.not_lt.1 hlt) (Std.not_lt.1 hgt)
    subst hk
    rw [lookup_cons, lookup_cons]
    by_cases h : other = k <;> simp [h]

/-- A key beyond all others goes to the end. -/
theorem insert_of_forall_lt {key : String} {value : α} {entries : List (String × α)}
    (h : ∀ e ∈ entries, e.1 < key) : insert key value entries = entries ++ [(key, value)] := by
  induction entries with
  | nil => rfl
  | cons e rest ih =>
    have hlt := h e List.mem_cons_self
    rw [insert, if_neg (String.lt_asymm hlt), if_pos hlt]
    rw [ih fun e' he => h e' (List.mem_cons_of_mem e he)]
    rfl

/-- Inserting entries whose keys increase, from beyond the ones there are, appends them. -/
theorem foldl_insert {rest entries : List (String × α)} (h : Sorted (entries ++ rest)) :
    rest.foldl (fun acc e => insert e.1 e.2 acc) entries = entries ++ rest := by
  induction rest generalizing entries with
  | nil => exact (List.append_nil entries).symm
  | cons e rest ih =>
    have hlt : ∀ e' ∈ entries, e'.1 < e.1 := fun e' he =>
      (List.pairwise_append.1 h).2.2 e' he e List.mem_cons_self
    rw [List.foldl_cons, insert_of_forall_lt hlt, ih (by rwa [List.append_assoc]), List.append_assoc]
    rfl

end CardMachine.Dict
