/-
Module: OmniBinder.Lib.Table
Purpose: Ordered finite tables, the model of `std::map`, and tables of buckets whose keys go when their
  bucket is empty. The lookup lemmas are stated with equality of keys instead of the comparison function,
  so that a proof about a table is a case split on keys.
Trusted boundary: none
Main exports: Table, SetIndex, NestedTable
-/
import Mathlib.Tactic.Linarith

/-- An ordered finite table, iterated in key order. -/
abbrev Table (κ α : Type) [Ord κ] := Std.TreeMap κ α compare

namespace Table

variable {κ α : Type} [Ord κ] [Std.TransOrd κ] [Std.LawfulEqOrd κ] {k : κ} {k a : κ} {k k' : κ}
  {v : α}

theorem getElem?_filter (t : Table κ α) (p : κ → α → Bool) (a : κ) :
    (t.filter p)[a]? = t[a]?.filter (p a) := Std.TreeMap.getElem?_filter'

theorem mem_toList {t : Table κ α} : (k, v) ∈ t.toList ↔ t[k]? = some v :=
  Std.TreeMap.mem_toList_iff_getElem?_eq_some

variable [DecidableEq κ]

section
variable (t : Table κ α)

theorem getElem?_insert (k a : κ) (v : α) : (t.insert k v)[a]? = if k = a then some v else t[a]? := by
  rw [Std.TreeMap.getElem?_insert]
  exact if_congr Std.LawfulEqCmp.compare_eq_iff_eq rfl rfl

theorem getElem?_erase (k a : κ) : (t.erase k)[a]? = if k = a then none else t[a]? := by
  rw [Std.TreeMap.getElem?_erase]
  exact if_congr Std.LawfulEqCmp.compare_eq_iff_eq rfl rfl

@[simp]
theorem getElem?_insert_self (k : κ) (v : α) : (t.insert k v)[k]? = some v := by
  rw [getElem?_insert, if_pos rfl]

@[simp]
theorem getElem?_erase_self (k : κ) : (t.erase k)[k]? = none := by
  rw [getElem?_erase, if_pos rfl]

variable {t} in
/-- What is found after an insertion was inserted or was there before. -/
theorem of_insert {v w : α} (h : (t.insert k v)[a]? = some w) :
    (a = k ∧ w = v) ∨ (k ≠ a ∧ t[a]? = some w) := by
  rw [getElem?_insert] at h
  split_ifs at h with hkey
  · exact .inl ⟨hkey.symm, (Option.some.inj h).symm⟩
  · exact .inr ⟨hkey, h⟩

variable {t} in
theorem of_erase {w : α} (h : (t.erase k)[a]? = some w) : k ≠ a ∧ t[a]? = some w := by
  rw [getElem?_erase] at h
  split_ifs at h with hkey
  exact ⟨hkey, h⟩

theorem getElem?_insert_of_ne (h : k ≠ a) (v : α) : (t.insert k v)[a]? = t[a]? := by
  rw [getElem?_insert, if_neg h]

theorem getElem?_erase_of_ne (h : k ≠ a) : (t.erase k)[a]? = t[a]? := by
  rw [getElem?_erase, if_neg h]

end

end Table

/-- A set kept in the order of its elements. -/
abbrev KeySet (α : Type) [Ord α] := Std.TreeSet α compare

namespace KeySet

variable {α : Type} [Ord α] [Std.TransOrd α]

theorem mem_insert [Std.LawfulEqOrd α] {s : KeySet α} {k a : α} : a ∈ s.insert k ↔ a = k ∨ a ∈ s := by
  rw [Std.TreeSet.mem_insert, Std.LawfulEqCmp.compare_eq_iff_eq]
  exact or_congr_left eq_comm

theorem mem_erase [Std.LawfulEqOrd α] {s : KeySet α} {k a : α} : a ∈ s.erase k ↔ a ≠ k ∧ a ∈ s := by
  rw [Std.TreeSet.mem_erase, ne_eq, Std.LawfulEqCmp.compare_eq_iff_eq]
  exact and_congr_left fun _ => not_congr eq_comm

/-- The set, unless it is empty. -/
def nonempty (s : KeySet α) : Option (KeySet α) := if s.isEmpty then none else some s

theorem nonempty_eq_some {s s' : KeySet α} : s.nonempty = some s' ↔ s' = s ∧ ∃ a, a ∈ s := by
  unfold nonempty
  by_cases hempty : s.isEmpty
  · have hnone : ¬ ∃ a, a ∈ s := fun ⟨a, ha⟩ => Std.TreeSet.isEmpty_iff_forall_not_mem.mp hempty a ha
    simp [hempty, hnone]
  · have hsome : ∃ a, a ∈ s :=
      Std.TreeSet.isEmpty_eq_false_iff_exists_mem.mp (by simpa using hempty)
    simp [hempty, hsome, eq_comm]

end KeySet

namespace Table

variable {κ β : Type} [Ord κ]

/-- Find a key and change what is stored there in place, or drop the key. -/
def adjust (t : Table κ β) (k : κ) (f : β → Option β) : Table κ β :=
  match t[k]? with
  | none => t
  | some b =>
    match f b with
    | none => t.erase k
    | some b' => t.insert k b'

/-- Change what is stored at a key, which is created when it is missing. -/
def grow (t : Table κ β) (k : κ) (f : Option β → β) : Table κ β := t.insert k (f t[k]?)

variable [Std.TransOrd κ] [Std.LawfulEqOrd κ] [DecidableEq κ]

theorem getElem?_adjust (t : Table κ β) (k a : κ) (f : β → Option β) :
    (t.adjust k f)[a]? = if k = a then (t[k]? : Option β).bind f else t[a]? := by
  unfold adjust
  split
  · next hnone =>
    split_ifs with heq
    · rw [← heq, hnone, Option.bind_none]
    · rfl
  · next b hsome =>
    rw [hsome, Option.bind_some]
    split
    · next hdrop => rw [getElem?_erase, hdrop]
    · next b' hkeep => rw [getElem?_insert, hkeep]

theorem getElem?_grow (t : Table κ β) (k a : κ) (f : Option β → β) :
    (t.grow k f)[a]? = if k = a then some (f t[k]?) else t[a]? := getElem?_insert t k a _

end Table

/-! ### A set under each key -/

/-- A set of values under each key. -/
structure SetIndex (κ α : Type) [Ord κ] [Ord α] where
  table : Table κ (KeySet α)
  noEmpty : ∀ (k : κ) (s : KeySet α), table[k]? = some s → ∃ a, a ∈ s

namespace SetIndex

variable {κ α : Type} [Ord κ] [Ord α]

def empty [Std.TransOrd κ] : SetIndex κ α := ⟨∅, by simp⟩

/-- The value is stored under the key. -/
def Has (t : SetIndex κ α) (k : κ) (a : α) : Prop :=
  ∃ s : KeySet α, t.table[k]? = some s ∧ a ∈ s

/-- The values under a key, in order. -/
def values (t : SetIndex κ α) (k : κ) : List α :=
  match t.table[k]? with
  | none => []
  | some s => s.toList

/-- The number of values under a key. -/
def count (t : SetIndex κ α) (k : κ) : Nat :=
  match t.table[k]? with
  | none => 0
  | some s => s.size

/-- There is something under the key. -/
def hasKey (t : SetIndex κ α) (k : κ) : Bool := t.table[k]?.isSome

variable {t : SetIndex κ α}

theorem hasKey_iff : t.hasKey k = true ↔ ∃ a, t.Has k a := by
  unfold hasKey Has
  cases h : t.table[k]? with
  | none => simp
  | some s =>
    obtain ⟨a, ha⟩ := t.noEmpty k s h
    simpa using ⟨a, ha⟩

theorem not_has_empty [Std.TransOrd κ] (k : κ) (a : α) : ¬ (empty : SetIndex κ α).Has k a := by
  simp [Has, empty]

variable [Std.TransOrd α] [Std.LawfulEqOrd α]

theorem mem_values {a : α} : a ∈ t.values k ↔ t.Has k a := by
  unfold values Has
  cases h : t.table[k]? with
  | none => simp
  | some s => simp

theorem nodup_values (t : SetIndex κ α) (k : κ) : (t.values k).Nodup := by
  unfold values
  cases t.table[k]? with
  | none => exact List.nodup_nil
  | some s =>
    refine (Std.TreeSet.ordered_toList (t := s)).imp fun hlt heq => ?_
    simp [heq] at hlt

variable [Std.TransOrd κ] [Std.LawfulEqOrd κ] [DecidableEq κ]

def add (t : SetIndex κ α) (k : κ) (a : α) : SetIndex κ α where
  table := t.table.grow k fun s => (s.getD ∅).insert a
  noEmpty := by
    intro k' s h
    rw [Table.getElem?_grow] at h
    split_ifs at h
    · cases h
      exact ⟨a, KeySet.mem_insert.mpr (.inl rfl)⟩
    · exact t.noEmpty k' s h

def remove (t : SetIndex κ α) (k : κ) (a : α) : SetIndex κ α where
  table := t.table.adjust k fun s => KeySet.nonempty (s.erase a)
  noEmpty := by
    intro k' s h
    rw [Table.getElem?_adjust] at h
    split_ifs at h
    · obtain ⟨s', -, hnonempty⟩ := Option.bind_eq_some_iff.mp h
      obtain ⟨rfl, hmem⟩ := KeySet.nonempty_eq_some.mp hnonempty
      exact hmem
    · exact t.noEmpty k' s h

def eraseKey (t : SetIndex κ α) (k : κ) : SetIndex κ α where
  table := t.table.erase k
  noEmpty := fun k' s h => t.noEmpty k' s (Table.of_erase h).2

theorem has_add {a a' : α} :
    (t.add k a).Has k' a' ↔ (k' = k ∧ a' = a) ∨ t.Has k' a' := by
  simp only [Has, add, Table.getElem?_grow]
  by_cases hkey : k = k'
  · subst hkey
    cases h : t.table[k]? with
    | none => simpa using eq_comm
    | some s => simpa using or_congr_left eq_comm
  · simp [hkey, Ne.symm hkey]

theorem has_remove {a a' : α} :
    (t.remove k a).Has k' a' ↔ ¬ (k' = k ∧ a' = a) ∧ t.Has k' a' := by
  simp only [Has, remove, Table.getElem?_adjust]
  by_cases hkey : k = k'
  · subst hkey
    cases h : t.table[k]? with
    | none => simp
    | some s =>
      simp only [↓reduceIte, Option.bind_some, KeySet.nonempty_eq_some, Option.some.injEq, true_and]
      constructor
      · rintro ⟨s', ⟨rfl, -⟩, hmem⟩
        exact ⟨(KeySet.mem_erase.mp hmem).1, s, rfl, (KeySet.mem_erase.mp hmem).2⟩
      · rintro ⟨hne, s', rfl, hmem⟩
        have hkept : a' ∈ s.erase a :=
          KeySet.mem_erase.mpr ⟨hne, hmem⟩
        exact ⟨s.erase a, ⟨rfl, a', hkept⟩, hkept⟩
  · simp [hkey, Ne.symm hkey]

theorem has_foldl_remove {ι : Type} (keyOf : ι → κ) (items : List ι) (a b : α) (k : κ)
    (t : SetIndex κ α) :
    (items.foldl (fun t item => t.remove (keyOf item) a) t).Has k b ↔
      ¬ (b = a ∧ ∃ item ∈ items, keyOf item = k) ∧ t.Has k b := by
  induction items generalizing t with
  | nil => simp
  | cons first items ih =>
    rw [List.foldl_cons, ih, has_remove]
    simp only [List.mem_cons, exists_eq_or_imp, eq_comm (a := k)]
    by_cases hb : b = a
    · by_cases hk : keyOf first = k
      · simp [hb, hk]
      · simp [hb, hk]
    · simp [hb]

omit [Std.TransOrd α] [Std.LawfulEqOrd α] in
theorem has_eraseKey {a : α} :
    (t.eraseKey k).Has k' a ↔ k' ≠ k ∧ t.Has k' a := by
  simp only [Has, eraseKey, Table.getElem?_erase]
  by_cases hkey : k = k'
  · simp [hkey]
  · simp [hkey, Ne.symm hkey]

end SetIndex

/-! ### A list under each key -/

/-- A list of values under each key. -/
structure ListIndex (κ α : Type) [Ord κ] where
  table : Table κ (List α)
  noEmpty : ∀ k : κ, table[k]? ≠ some []

namespace ListIndex

variable {κ α : Type} [Ord κ]

def empty [Std.TransOrd κ] : ListIndex κ α := ⟨∅, by simp⟩

/-- The values under a key, oldest first. -/
def values (t : ListIndex κ α) (k : κ) : List α := t.table[k]?.getD []

/-- There is something under the key. -/
def hasKey (t : ListIndex κ α) (k : κ) : Bool := t.table[k]?.isSome

theorem hasKey_iff {t : ListIndex κ α} : t.hasKey k = true ↔ t.values k ≠ [] := by
  unfold hasKey values
  cases h : t.table[k]? with
  | none => simp
  | some l =>
    have hne : l ≠ [] := fun hnil => t.noEmpty k (hnil ▸ h)
    simpa using hne

@[simp]
theorem values_empty [Std.TransOrd κ] (k : κ) : (empty : ListIndex κ α).values k = [] := by simp [values, empty]

variable [Std.TransOrd κ] [Std.LawfulEqOrd κ] [DecidableEq κ]

/-- Append a value. -/
def push (t : ListIndex κ α) (k : κ) (a : α) : ListIndex κ α where
  table := t.table.grow k fun l => l.getD [] ++ [a]
  noEmpty := by
    intro k' h
    rw [Table.getElem?_grow] at h
    split_ifs at h
    · simp at h
    · exact t.noEmpty k' h

/-- Change the list under a key that is present. -/
def update (t : ListIndex κ α) (k : κ) (f : List α → List α) : ListIndex κ α where
  table := t.table.adjust k fun l => if (f l).isEmpty then none else some (f l)
  noEmpty := by
    intro k' h
    rw [Table.getElem?_adjust] at h
    split_ifs at h
    · obtain ⟨l, -, hne⟩ := Option.bind_eq_some_iff.mp h
      split_ifs at hne with hempty
      · simp_all
    · exact t.noEmpty k' h

def eraseKey (t : ListIndex κ α) (k : κ) : ListIndex κ α where
  table := t.table.erase k
  noEmpty := fun k' h => t.noEmpty k' (Table.of_erase h).2

section
variable (t : ListIndex κ α) (k k' : κ)

theorem values_push (a : α) :
    (t.push k a).values k' = if k = k' then t.values k ++ [a] else t.values k' := by
  rw [values, push, Table.getElem?_grow]
  split_ifs
  · rfl
  · rfl

theorem values_update {f : List α → List α} (hf : f [] = []) :
    (t.update k f).values k' = if k = k' then f (t.values k) else t.values k' := by
  rw [values, update, Table.getElem?_adjust]
  split_ifs
  · unfold values
    cases h : t.table[k]? with
    | none => simp [hf]
    | some l =>
      by_cases hempty : (f l).isEmpty
      · simp_all
      · simp_all
  · rfl

theorem values_eraseKey : (t.eraseKey k).values k' = if k = k' then [] else t.values k' := by
  rw [values, eraseKey, Table.getElem?_erase]
  split_ifs
  · rfl
  · rfl

end

end ListIndex

/-! ### A table under each key -/

/-- A table of values under each key. -/
structure NestedTable (κ ι α : Type) [Ord κ] [Ord ι] where
  rows : Table κ (Table ι α)
  noEmpty : ∀ (k : κ) (row : Table ι α), rows[k]? = some row →
    ∃ (i : ι) (v : α), row[i]? = some v

namespace NestedTable

variable {κ ι α : Type} [Ord κ] [Ord ι]

def empty [Std.TransOrd κ] : NestedTable κ ι α := ⟨∅, by simp⟩

/-- The value stored under a pair of keys. -/
def get? (t : NestedTable κ ι α) (k : κ) (i : ι) : Option α :=
  match t.rows[k]? with
  | none => none
  | some row => row[i]?

/-- The entries under a key, in the order of the inner keys. -/
def entries (t : NestedTable κ ι α) (k : κ) : List (ι × α) :=
  match t.rows[k]? with
  | none => []
  | some row => row.toList

/-- Everything that is stored. -/
def toList (t : NestedTable κ ι α) : List (κ × ι × α) :=
  t.rows.toList.flatMap fun (k, row) => row.toList.map fun (i, v) => (k, i, v)

/-- There is something under the key. -/
def hasKey (t : NestedTable κ ι α) (k : κ) : Bool := t.rows[k]?.isSome

/-- Nothing is stored. -/
def isEmpty (t : NestedTable κ ι α) : Bool := t.rows.isEmpty

/-- The number of keys. -/
def size (t : NestedTable κ ι α) : Nat := t.rows.size

variable {t : NestedTable κ ι α}

theorem hasKey_iff :
    t.hasKey k = true ↔ ∃ i v, t.get? k i = some v := by
  unfold hasKey get?
  cases h : t.rows[k]? with
  | none => simp
  | some row => simpa using t.noEmpty k row h

@[simp]
theorem get?_empty [Std.TransOrd κ] (k : κ) (i : ι) : (empty : NestedTable κ ι α).get? k i = none := by
  simp [get?, empty]

theorem get?_of_isEmpty [Std.TransOrd κ] (h : t.isEmpty = true) (k : κ)
    (i : ι) : t.get? k i = none := by
  have hrow : t.rows[k]? = none :=
    Std.TreeMap.getElem?_eq_none (Std.TreeMap.isEmpty_iff_forall_not_mem.mp h k)
  simp [get?, hrow]

variable [Std.TransOrd ι] [Std.LawfulEqOrd ι]

theorem mem_entries {i : ι} :
    (i, v) ∈ t.entries k ↔ t.get? k i = some v := by
  unfold entries get?
  cases h : t.rows[k]? with
  | none => simp
  | some row => exact Table.mem_toList

variable [Std.TransOrd κ] [Std.LawfulEqOrd κ]

theorem mem_toList {i : ι} :
    (k, i, v) ∈ t.toList ↔ t.get? k i = some v := by
  unfold toList get?
  rw [List.mem_flatMap]
  constructor
  · rintro ⟨⟨k', row⟩, hrow, hmem⟩
    obtain ⟨⟨i', v'⟩, hentry, heq⟩ := List.mem_map.mp hmem
    cases heq
    rw [Table.mem_toList.mp hrow]
    exact Table.mem_toList.mp hentry
  · intro h
    split at h
    · cases h
    · next row hrow =>
        refine ⟨(k, row), Table.mem_toList.mpr hrow, List.mem_map.mpr ⟨(i, v), ?_, rfl⟩⟩
        exact Table.mem_toList.mpr h

variable [DecidableEq κ] [DecidableEq ι]

def set (t : NestedTable κ ι α) (k : κ) (i : ι) (v : α) : NestedTable κ ι α where
  rows := t.rows.grow k fun row => (row.getD ∅).insert i v
  noEmpty := by
    intro k' row h
    rw [Table.getElem?_grow] at h
    split_ifs at h
    · cases h
      exact ⟨i, v, Table.getElem?_insert_self _ i v⟩
    · exact t.noEmpty k' row h

/-- Change the row under a key that is present. -/
def update (t : NestedTable κ ι α) (k : κ) (f : Table ι α → Table ι α) : NestedTable κ ι α where
  rows := t.rows.adjust k fun row => if (f row).isEmpty then none else some (f row)
  noEmpty := by
    intro k' row h
    rw [Table.getElem?_adjust] at h
    split_ifs at h
    · obtain ⟨row', -, hne⟩ := Option.bind_eq_some_iff.mp h
      split_ifs at hne with hempty
      cases hne
      obtain ⟨i, hi⟩ := Std.TreeMap.isEmpty_eq_false_iff_exists_mem.mp (by simpa using hempty)
      exact ⟨i, _, Std.TreeMap.getElem?_eq_some_getElem hi⟩
    · exact t.noEmpty k' row h

def erase (t : NestedTable κ ι α) (k : κ) (i : ι) : NestedTable κ ι α :=
  t.update k fun row => row.erase i

def eraseKey (t : NestedTable κ ι α) (k : κ) : NestedTable κ ι α where
  rows := t.rows.erase k
  noEmpty := fun k' row h => t.noEmpty k' row (Table.of_erase h).2

theorem get?_set (t : NestedTable κ ι α) (k k' : κ) (i i' : ι) (v : α) :
    (t.set k i v).get? k' i' = if k = k' ∧ i = i' then some v else t.get? k' i' := by
  simp only [get?, set, Table.getElem?_grow]
  by_cases hkey : k = k'
  · subst hkey
    cases h : t.rows[k]? with
    | none => simp [Table.getElem?_insert]
    | some row => simp [Table.getElem?_insert]
  · simp [hkey]

theorem get?_erase (t : NestedTable κ ι α) (k k' : κ) (i i' : ι) :
    (t.erase k i).get? k' i' = if k = k' ∧ i = i' then none else t.get? k' i' := by
  simp only [get?, erase, update, Table.getElem?_adjust]
  by_cases hkey : k = k'
  · subst hkey
    cases h : t.rows[k]? with
    | none => simp
    | some row =>
      simp only [if_pos, Option.bind_some, true_and]
      by_cases hempty : (row.erase i).isEmpty
      · have hgone : ∀ i', (row.erase i)[i']? = none := fun i' =>
          Std.TreeMap.getElem?_eq_none
            (Std.TreeMap.isEmpty_iff_forall_not_mem.mp hempty i')
        rw [if_pos hempty]
        have hi := hgone i'
        rw [Table.getElem?_erase] at hi
        split_ifs with heq
        · rfl
        · rw [if_neg heq] at hi
          exact hi.symm
      · rw [if_neg hempty]
        exact Table.getElem?_erase row i i'
  · simp [hkey]

omit [Std.TransOrd ι] [Std.LawfulEqOrd ι] [DecidableEq ι] in
theorem get?_eraseKey (t : NestedTable κ ι α) (k k' : κ) (i : ι) :
    (t.eraseKey k).get? k' i = if k = k' then none else t.get? k' i := by
  simp only [get?, eraseKey, Table.getElem?_erase]
  by_cases hkey : k = k'
  · simp [hkey]
  · simp [hkey]

end NestedTable
