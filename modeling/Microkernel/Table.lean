/-
Finite maps from natural numbers, kept in ascending order of their keys.

`Table α` holds at most one value per key. `get?` is its view, and every operation is
described by what it does to `get?`:

* **`get?_insert`**: inserting changes one key only;
* **`get?_erase`**: erasing forgets one key only;
* **`get?_modify`**: modifying applies a function to one value, if there is one;
* **`get?_map`**: mapping applies a function to every value.

Design notes: insertion is a single pass that replaces on a collision, so the laws of
`get?` need no hypothesis on the order of the entries; the order is a field of the type and
makes a table determined by its view (`Table.ext_get?`).
-/
namespace Microkernel

namespace Entries

variable {α β : Type}

/-- The value under `k`, reading from the front. -/
def find : List (Nat × α) → Nat → Option α
  | [], _ => none
  | (k', a) :: rest, k => if k' = k then some a else find rest k

/-- Puts `a` under `k`, in front of the first greater key or over an equal one. -/
def insert (k : Nat) (a : α) : List (Nat × α) → List (Nat × α)
  | [] => [(k, a)]
  | (k', a') :: rest =>
    if k < k' then (k, a) :: (k', a') :: rest
    else if k' = k then (k, a) :: rest
    else (k', a') :: insert k a rest

/-- Keys ascend strictly. -/
def Ascending (l : List (Nat × α)) : Prop :=
  l.Pairwise fun x y => x.1 < y.1

theorem mem_insert {k : Nat} {a : α} {x : Nat × α} {l : List (Nat × α)}
    (h : x ∈ insert k a l) : x = (k, a) ∨ x ∈ l := by
  induction l with
  | nil => simpa [insert] using h
  | cons y rest ih =>
    simp only [insert] at h
    grind

theorem ascending_insert {k : Nat} {a : α} {l : List (Nat × α)} (h : Ascending l) :
    Ascending (insert k a l) := by
  induction l with
  | nil => simp [Ascending, insert]
  | cons y rest ih =>
    obtain ⟨k', a'⟩ := y
    have hhead : ∀ x ∈ rest, k' < x.1 := (List.pairwise_cons.1 h).1
    have htail : Ascending rest := (List.pairwise_cons.1 h).2
    simp only [insert]
    split
    · rename_i hlt
      refine List.pairwise_cons.2 ⟨fun x hx => ?_, h⟩
      rcases List.mem_cons.1 hx with rfl | hx
      · exact hlt
      · exact Nat.lt_trans hlt (hhead x hx)
    · split
      · rename_i heq
        exact List.pairwise_cons.2 ⟨fun x hx => heq ▸ hhead x hx, htail⟩
      · rename_i hge hne
        refine List.pairwise_cons.2 ⟨fun x hx => ?_, ih htail⟩
        rcases mem_insert hx with rfl | hx
        · simp only
          omega
        · exact hhead x hx

theorem perm_insert {k : Nat} (a : α) {l : List (Nat × α)} (h : ∀ x ∈ l, x.1 ≠ k) :
    (insert k a l).Perm ((k, a) :: l) := by
  induction l with
  | nil => exact List.Perm.refl _
  | cons x rest ih =>
    obtain ⟨k', a'⟩ := x
    have hne : k' ≠ k := h (k', a') List.mem_cons_self
    simp only [insert, hne, if_false]
    split
    · exact List.Perm.refl _
    · exact ((ih fun x hx => h x (List.mem_cons_of_mem _ hx)).cons _).trans (List.Perm.swap _ _ _)

theorem find_insert (k : Nat) (a : α) (l : List (Nat × α)) (j : Nat) :
    find (insert k a l) j = if j = k then some a else find l j := by
  induction l with
  | nil => grind [insert, find]
  | cons y rest ih => grind [insert, find]

theorem find_filter (k : Nat) (l : List (Nat × α)) (j : Nat) :
    find (l.filter fun x => x.1 ≠ k) j = if j = k then none else find l j := by
  induction l with
  | nil => simp [find]
  | cons y rest ih =>
    obtain ⟨k', a'⟩ := y
    by_cases hk : k' = k
    · subst hk
      by_cases hj : j = k'
      · subst hj
        simpa [find, List.filter_cons] using ih
      · have : k' ≠ j := fun e => hj e.symm
        simpa [find, List.filter_cons, hj, this] using ih
    · by_cases hj : j = k'
      · subst hj
        simp [find, hk]
      · have : k' ≠ j := fun e => hj e.symm
        simpa [find, List.filter_cons, hk, this] using ih

theorem find_map (f : Nat → α → β) (l : List (Nat × α)) (j : Nat) :
    find (l.map fun x => (x.1, f x.1 x.2)) j = (find l j).map (f j) := by
  induction l with
  | nil => rfl
  | cons y rest ih =>
    obtain ⟨k', a'⟩ := y
    by_cases hj : k' = j
    · subst hj
      simp [find]
    · simp [find, hj, ih]

theorem ascending_map (f : Nat → α → β) {l : List (Nat × α)} (h : Ascending l) :
    Ascending (l.map fun x => (x.1, f x.1 x.2)) :=
  List.pairwise_map.2 (h.imp fun hlt => hlt)

theorem find_eq_none {l : List (Nat × α)} {j : Nat} :
    find l j = none ↔ ∀ x ∈ l, x.1 ≠ j := by
  induction l with
  | nil => simp [find]
  | cons y rest ih =>
    obtain ⟨k', a'⟩ := y
    by_cases hj : k' = j <;> simp [find, hj, ih]

theorem mem_iff_find {l : List (Nat × α)} (h : Ascending l) {j : Nat} {a : α} :
    (j, a) ∈ l ↔ find l j = some a := by
  induction l with
  | nil => simp [find]
  | cons y rest ih =>
    obtain ⟨k', a'⟩ := y
    have hhead : ∀ x ∈ rest, k' < x.1 := (List.pairwise_cons.1 h).1
    have htail : Ascending rest := (List.pairwise_cons.1 h).2
    by_cases hj : k' = j
    · subst hj
      have : (k', a) ∉ rest := fun hm => Nat.lt_irrefl _ (hhead _ hm)
      simp [find, this, eq_comm]
    · have hne : j ≠ k' := fun e => hj e.symm
      simp [find, hj, hne, ih htail]

theorem eq_of_find {l₁ l₂ : List (Nat × α)} (h₁ : Ascending l₁) (h₂ : Ascending l₂)
    (h : ∀ j, find l₁ j = find l₂ j) : l₁ = l₂ := by
  have mem : ∀ x, x ∈ l₁ ↔ x ∈ l₂ := by
    rintro ⟨j, a⟩
    rw [mem_iff_find h₁, mem_iff_find h₂, h j]
  have sub₁ : l₁.Nodup := h₁.imp fun hlt heq => by simp [heq] at hlt
  have sub₂ : l₂.Nodup := h₂.imp fun hlt heq => by simp [heq] at hlt
  have perm : l₁.Perm l₂ := (List.perm_ext_iff_of_nodup sub₁ sub₂).2 mem
  refine perm.eq_of_pairwise ?_ h₁ h₂
  intro a b _ _ hab hba
  exact absurd (Nat.lt_trans hab hba) (Nat.lt_irrefl _)

end Entries

/-- A finite map from natural numbers to `α`. -/
structure Table (α : Type) where
  /-- Keys and values, by ascending key. -/
  entries : List (Nat × α)
  ascending : Entries.Ascending entries
  deriving DecidableEq

namespace Table

variable {α β : Type}

/-- The table without entries. -/
def empty : Table α :=
  ⟨[], List.Pairwise.nil⟩

instance : Inhabited (Table α) :=
  ⟨empty⟩

/-- The value under a key. -/
def get? (t : Table α) (k : Nat) : Option α :=
  Entries.find t.entries k

/-- There is a value under the key. -/
def contains (t : Table α) (k : Nat) : Bool :=
  (t.get? k).isSome

/-- Puts a value under a key, in place of an earlier one. -/
def insert (t : Table α) (k : Nat) (a : α) : Table α :=
  ⟨Entries.insert k a t.entries, Entries.ascending_insert t.ascending⟩

/-- Drops what is under a key. -/
def erase (t : Table α) (k : Nat) : Table α :=
  ⟨t.entries.filter fun x => x.1 ≠ k, t.ascending.filter _⟩

/-- Applies a function to every value. -/
def map (f : Nat → α → β) (t : Table α) : Table β :=
  ⟨t.entries.map fun x => (x.1, f x.1 x.2), Entries.ascending_map f t.ascending⟩

/-- Applies a function to the value under a key. -/
def modify (t : Table α) (k : Nat) (f : α → α) : Table α :=
  t.map fun j a => if j = k then f a else a

/-- The keys in ascending order. -/
def keys (t : Table α) : List Nat :=
  t.entries.map Prod.fst

/-- The values by ascending key. -/
def values (t : Table α) : List α :=
  t.entries.map Prod.snd

@[simp] theorem get?_empty (j : Nat) : (empty : Table α).get? j = none := rfl

theorem get?_insert (t : Table α) (k : Nat) (a : α) (j : Nat) :
    (t.insert k a).get? j = if j = k then some a else t.get? j :=
  Entries.find_insert k a t.entries j

theorem get?_erase (t : Table α) (k j : Nat) :
    (t.erase k).get? j = if j = k then none else t.get? j :=
  Entries.find_filter k t.entries j

theorem get?_map (f : Nat → α → β) (t : Table α) (j : Nat) :
    (t.map f).get? j = (t.get? j).map (f j) :=
  Entries.find_map f t.entries j

theorem get?_modify (t : Table α) (k : Nat) (f : α → α) (j : Nat) :
    (t.modify k f).get? j = if j = k then (t.get? j).map f else t.get? j := by
  rw [modify, get?_map]
  by_cases hj : j = k
  · simp [hj]
  · simp [hj]

theorem ext_get? {t₁ t₂ : Table α} (h : ∀ j, t₁.get? j = t₂.get? j) : t₁ = t₂ := by
  obtain ⟨l₁, h₁⟩ := t₁
  obtain ⟨l₂, h₂⟩ := t₂
  have : l₁ = l₂ := Entries.eq_of_find h₁ h₂ h
  subst this
  rfl

theorem mem_keys {t : Table α} {j : Nat} : j ∈ t.keys ↔ t.contains j = true := by
  have := (not_congr (Entries.find_eq_none (l := t.entries) (j := j))).symm
  simp only [keys, contains, get?, List.mem_map]
  rw [Option.isSome_iff_ne_none, ne_eq, ← this]
  simp

theorem nodup_keys (t : Table α) : t.keys.Nodup := by
  rw [keys, List.nodup_iff_pairwise_ne, List.pairwise_map]
  exact t.ascending.imp fun hlt => Nat.ne_of_lt hlt

theorem map_insert (f : Nat → α → β) (t : Table α) (k : Nat) (a : α) :
    (t.insert k a).map f = (t.map f).insert k (f k a) := by
  refine ext_get? fun j => ?_
  rw [get?_map, get?_insert, get?_insert, get?_map]
  split
  · rename_i hj
    rw [hj]
    rfl
  · rfl

theorem map_erase (f : Nat → α → β) (t : Table α) (k : Nat) :
    (t.erase k).map f = (t.map f).erase k := by
  refine ext_get? fun j => ?_
  rw [get?_map, get?_erase, get?_erase, get?_map]
  split <;> rfl

/-! ### The values -/

theorem mem_values {t : Table α} {a : α} : a ∈ t.values ↔ ∃ j, t.get? j = some a := by
  rw [values, List.mem_map]
  constructor
  · rintro ⟨⟨j, b⟩, hin, rfl⟩
    exact ⟨j, (Entries.mem_iff_find t.ascending).1 hin⟩
  · rintro ⟨j, hj⟩
    exact ⟨(j, a), (Entries.mem_iff_find t.ascending).2 hj, rfl⟩

/-- Values that know their keys. -/
theorem map_values {t : Table α} {f : α → Nat} (h : ∀ j a, t.get? j = some a → f a = j) :
    t.values.map f = t.keys := by
  rw [values, keys, List.map_map]
  refine List.map_congr_left fun x hx => ?_
  exact h x.1 x.2 ((Entries.mem_iff_find t.ascending).1 hx)

/-- Tables that agree on a function of their values list the same results. -/
theorem map_values_congr {t t' : Table α} {f : α → β}
    (h : ∀ j, (t'.get? j).map f = (t.get? j).map f) : t'.values.map f = t.values.map f := by
  have hmap : ∀ u : Table α, (u.map fun _ => f).values = u.values.map f := by
    intro u
    rw [values, values, map, List.map_map, List.map_map]
    rfl
  rw [← hmap, ← hmap]
  refine congrArg values (ext_get? fun j => ?_)
  rw [get?_map, get?_map]
  exact h j

/-- A new key adds its value. -/
theorem perm_values_insert {t : Table α} {k : Nat} (h : t.get? k = none) (a : α) :
    (t.insert k a).values.Perm (a :: t.values) :=
  (Entries.perm_insert a (Entries.find_eq_none.1 h)).map Prod.snd

/-- A key that is erased takes its value with it. -/
theorem perm_values_erase {t : Table α} {k : Nat} {a : α} (h : t.get? k = some a) :
    (a :: (t.erase k).values).Perm t.values := by
  have hsame : (t.erase k).insert k a = t := by
    refine ext_get? fun j => ?_
    rw [get?_insert, get?_erase]
    split
    · rename_i hj
      rw [hj, h]
    · rfl
  have hnone : (t.erase k).get? k = none := by rw [get?_erase, if_pos rfl]
  have hperm := perm_values_insert hnone a
  rw [hsame] at hperm
  exact hperm.symm

end Table

end Microkernel
