/-! # Tables

Finite maps from numbers, kept as a list in ascending order of the keys. Two tables that look up
alike are equal (`Table.ext`). -/

namespace OnePage

/-- Entries of a table: pairs of a key and a value, the keys strictly ascending. -/
def Ascending {α : Type} (entries : List (Nat × α)) : Prop :=
  entries.Pairwise fun a b => a.1 < b.1

structure Table (α : Type) where
  entries : List (Nat × α)
  ascending : Ascending entries

namespace Table

variable {α β : Type}

/-! ## Look-up, insertion and removal on lists of entries -/

def find (k : Nat) : List (Nat × α) → Option α
  | [] => none
  | (j, a) :: rest => if j = k then some a else find k rest

def put (k : Nat) (v : α) : List (Nat × α) → List (Nat × α)
  | [] => [(k, v)]
  | (j, a) :: rest =>
    if j < k then (j, a) :: put k v rest
    else if j = k then (k, v) :: rest
    else (k, v) :: (j, a) :: rest

def remove (k : Nat) : List (Nat × α) → List (Nat × α)
  | [] => []
  | (j, a) :: rest => if j = k then rest else (j, a) :: remove k rest

theorem find_eq_none {k : Nat} {l : List (Nat × α)} (h : ∀ e ∈ l, e.1 ≠ k) : find k l = none := by
  induction l with
  | nil => rfl
  | cons e rest ih =>
    obtain ⟨j, a⟩ := e
    have hj : j ≠ k := h (j, a) (List.mem_cons_self ..)
    simp [find, hj, ih fun e he => h e (List.mem_cons_of_mem _ he)]

theorem find_eq_some_iff {l : List (Nat × α)} (hl : Ascending l) {k : Nat} {v : α} :
    find k l = some v ↔ (k, v) ∈ l := by
  induction l with
  | nil => simp [find]
  | cons e rest ih =>
    obtain ⟨j, a⟩ := e
    obtain ⟨hj, hrest⟩ := List.pairwise_cons.1 hl
    by_cases h : j = k
    · subst h
      have hnot : (j, v) ∉ rest := fun hm => absurd (hj _ hm) (Nat.lt_irrefl _)
      simp [find, hnot, eq_comm]
    · have hne : (k, v) ≠ (j, a) := fun he => h (by cases he; rfl)
      simp [find, h, ih hrest, hne]

theorem mem_put {k : Nat} {v : α} {l : List (Nat × α)} {e : Nat × α} (h : e ∈ put k v l) :
    e = (k, v) ∨ e ∈ l := by
  induction l with
  | nil => simpa [put] using h
  | cons d rest ih =>
    obtain ⟨j, a⟩ := d
    simp only [put] at h
    split at h
    · rcases List.mem_cons.1 h with h | h
      · exact .inr (h ▸ List.mem_cons_self ..)
      · exact (ih h).imp_right (List.mem_cons_of_mem _)
    · split at h
      · exact (List.mem_cons.1 h).imp_right (List.mem_cons_of_mem _)
      · exact List.mem_cons.1 h

theorem ascending_put {l : List (Nat × α)} (hl : Ascending l) (k : Nat) (v : α) :
    Ascending (put k v l) := by
  induction l with
  | nil => exact List.pairwise_singleton ..
  | cons d rest ih =>
    obtain ⟨j, a⟩ := d
    obtain ⟨hj, hrest⟩ := List.pairwise_cons.1 hl
    simp only [put]
    split
    · rename_i hlt
      refine List.pairwise_cons.2 ⟨fun e he => ?_, ih hrest⟩
      rcases mem_put he with rfl | he
      · exact hlt
      · exact hj e he
    · split
      · rename_i heq
        exact List.pairwise_cons.2 ⟨fun e he => heq ▸ hj e he, hrest⟩
      · refine List.pairwise_cons.2 ⟨fun e he => ?_, hl⟩
        have hkj : k < j := by omega
        rcases List.mem_cons.1 he with rfl | he
        · exact hkj
        · exact Nat.lt_trans hkj (hj e he)

theorem find_put (l : List (Nat × α)) (k j : Nat) (v : α) :
    find j (put k v l) = if j = k then some v else find j l := by
  induction l with
  | nil => simp [put, find, eq_comm]
  | cons d rest ih =>
    obtain ⟨i, a⟩ := d
    simp only [put]
    split
    · by_cases hi : i = j
      · have : j ≠ k := by omega
        simp [find, hi, this]
      · simp [find, hi, ih]
    · split
      · rename_i heq
        subst heq
        by_cases hj : j = i
        · simp [find, hj]
        · simp [find, hj, Ne.symm hj]
      · simp only [find]
        by_cases hj : j = k
        · simp [hj]
        · simp [hj, Ne.symm hj]

theorem remove_sublist (k : Nat) (l : List (Nat × α)) : (remove k l).Sublist l := by
  induction l with
  | nil => exact List.Sublist.refl _
  | cons d rest ih =>
    obtain ⟨j, a⟩ := d
    simp only [remove]
    split
    · exact List.sublist_cons_self ..
    · exact ih.cons_cons _

theorem find_remove {l : List (Nat × α)} (hl : Ascending l) (k j : Nat) :
    find j (remove k l) = if j = k then none else find j l := by
  induction l with
  | nil => simp [remove, find]
  | cons d rest ih =>
    obtain ⟨i, a⟩ := d
    obtain ⟨hi, hrest⟩ := List.pairwise_cons.1 hl
    simp only [remove]
    split
    · rename_i hik
      subst hik
      by_cases hj : j = i
      · subst hj
        simp [find_eq_none fun e he h => Nat.lt_irrefl _ (h ▸ hi e he)]
      · simp [find, hj, Ne.symm hj]
    · rename_i hik
      by_cases hj : i = j
      · subst hj
        simp [find, hik]
      · simp [find, hj, ih hrest]

theorem length_put {l : List (Nat × α)} (hl : Ascending l) (k : Nat) (v : α) :
    (put k v l).length = if (find k l).isSome then l.length else l.length + 1 := by
  induction l with
  | nil => rfl
  | cons d rest ih =>
    obtain ⟨j, a⟩ := d
    obtain ⟨hj, hrest⟩ := List.pairwise_cons.1 hl
    simp only [put, find]
    split
    · rename_i hlt
      have hne : j ≠ k := Nat.ne_of_lt hlt
      simp only [if_neg hne, List.length_cons, ih hrest]
      split <;> rfl
    · split
      · simp
      · rename_i hlt hne
        have hnone : find k rest = none := find_eq_none fun e he h => by
          have := hj e he
          omega
        simp [hnone]

theorem length_remove (k : Nat) (l : List (Nat × α)) :
    (remove k l).length = if (find k l).isSome then l.length - 1 else l.length := by
  induction l with
  | nil => rfl
  | cons d rest ih =>
    obtain ⟨j, a⟩ := d
    simp only [remove, find]
    split
    · simp
    · simp only [List.length_cons, ih]
      split
      · rename_i h
        cases rest with
        | nil => cases h
        | cons => simp
      · rfl

/-! ## Tables -/

def empty : Table α := ⟨[], List.Pairwise.nil⟩

instance : EmptyCollection (Table α) := ⟨empty⟩
instance : Inhabited (Table α) := ⟨empty⟩

def get? (t : Table α) (k : Nat) : Option α := find k t.entries

def insert (t : Table α) (k : Nat) (v : α) : Table α :=
  ⟨put k v t.entries, ascending_put t.ascending k v⟩

def erase (t : Table α) (k : Nat) : Table α :=
  ⟨remove k t.entries, t.ascending.sublist (remove_sublist k t.entries)⟩

def contains (t : Table α) (k : Nat) : Bool := (t.get? k).isSome

def size (t : Table α) : Nat := t.entries.length

def isEmpty (t : Table α) : Bool := t.entries.isEmpty

def keys (t : Table α) : List Nat := t.entries.map (·.1)

/-- The least number from `n` on that is not among the ascending `keys`. -/
def leastFree (n : Nat) : List Nat → Nat
  | [] => n
  | k :: rest => if k < n then leastFree n rest else if k = n then leastFree (n + 1) rest else n

/-- The least number from `floor` on that is no key. -/
def firstFree (t : Table α) (floor : Nat) : Nat := leastFree floor t.keys

@[simp] theorem get?_empty (k : Nat) : (∅ : Table α).get? k = none := rfl

@[simp] theorem get?_insert (t : Table α) (k j : Nat) (v : α) :
    (t.insert k v).get? j = if j = k then some v else t.get? j := find_put ..

@[simp] theorem get?_erase (t : Table α) (k j : Nat) :
    (t.erase k).get? j = if j = k then none else t.get? j := find_remove t.ascending ..

theorem get?_eq_some_iff {t : Table α} {k : Nat} {v : α} :
    t.get? k = some v ↔ (k, v) ∈ t.entries := find_eq_some_iff t.ascending

theorem size_insert (t : Table α) (k : Nat) (v : α) :
    (t.insert k v).size = if (t.get? k).isSome then t.size else t.size + 1 :=
  length_put t.ascending k v

theorem size_erase (t : Table α) (k : Nat) :
    (t.erase k).size = if (t.get? k).isSome then t.size - 1 else t.size :=
  length_remove k t.entries

theorem size_pos_of_get? {t : Table α} {k : Nat} {v : α} (h : t.get? k = some v) : 0 < t.size :=
  List.length_pos_of_mem (get?_eq_some_iff.1 h)

theorem isEmpty_of_get? {t : Table α} {k : Nat} {v : α} (h : t.get? k = some v) :
    t.isEmpty = false :=
  List.isEmpty_eq_false_iff.2 (List.ne_nil_of_mem (get?_eq_some_iff.1 h))

theorem mem_keys {t : Table α} {k : Nat} : k ∈ t.keys ↔ t.contains k := by
  simp only [keys, List.mem_map, contains, Option.isSome_iff_exists]
  constructor
  · rintro ⟨⟨j, v⟩, hm, rfl⟩
    exact ⟨v, get?_eq_some_iff.2 hm⟩
  · rintro ⟨v, h⟩
    exact ⟨(k, v), get?_eq_some_iff.1 h, rfl⟩

theorem nodup_keys (t : Table α) : t.keys.Nodup :=
  List.pairwise_map.2 (t.ascending.imp Nat.ne_of_lt)

theorem filterMap_keys (t : Table α) : t.keys.filterMap t.get? = t.entries.map (·.2) := by
  have hall {l : List (Nat × α)} (h : ∀ e ∈ l, t.get? e.1 = some e.2) :
      (l.map (·.1)).filterMap t.get? = l.map (·.2) := by
    induction l with
    | nil => rfl
    | cons e rest ih =>
      obtain ⟨he, hrest⟩ := List.forall_mem_cons.1 h
      rw [List.map_cons, List.filterMap_cons_some he, ih hrest, List.map_cons]
  exact hall fun e he => get?_eq_some_iff.2 he

theorem entries_ext {l₁ l₂ : List (Nat × α)} (h₁ : Ascending l₁) (h₂ : Ascending l₂)
    (h : ∀ e, e ∈ l₁ ↔ e ∈ l₂) : l₁ = l₂ := by
  induction l₁ generalizing l₂ with
  | nil =>
    cases l₂ with
    | nil => rfl
    | cons e _ => exact absurd ((h e).2 (List.mem_cons_self ..)) (List.not_mem_nil)
  | cons a r₁ ih =>
    cases l₂ with
    | nil => exact absurd ((h a).1 (List.mem_cons_self ..)) (List.not_mem_nil)
    | cons b r₂ =>
      obtain ⟨ha, hr₁⟩ := List.pairwise_cons.1 h₁
      obtain ⟨hb, hr₂⟩ := List.pairwise_cons.1 h₂
      have hab : a = b := by
        rcases List.mem_cons.1 ((h a).1 (List.mem_cons_self ..)) with h' | h'
        · exact h'
        rcases List.mem_cons.1 ((h b).2 (List.mem_cons_self ..)) with h'' | h''
        · exact h''.symm
        exact absurd (Nat.lt_trans (hb a h') (ha b h'')) (Nat.lt_irrefl _)
      subst hab
      congr 1
      refine ih hr₁ hr₂ fun e => ⟨fun he => ?_, fun he => ?_⟩
      · rcases List.mem_cons.1 ((h e).1 (List.mem_cons_of_mem _ he)) with rfl | h'
        · exact absurd (ha _ he) (Nat.lt_irrefl _)
        · exact h'
      · rcases List.mem_cons.1 ((h e).2 (List.mem_cons_of_mem _ he)) with rfl | h'
        · exact absurd (hb _ he) (Nat.lt_irrefl _)
        · exact h'

theorem ext {t₁ t₂ : Table α} (h : ∀ k, t₁.get? k = t₂.get? k) : t₁ = t₂ := by
  obtain ⟨l₁, h₁⟩ := t₁
  obtain ⟨l₂, h₂⟩ := t₂
  have : l₁ = l₂ := entries_ext h₁ h₂ fun ⟨k, v⟩ => by
    rw [← find_eq_some_iff h₁, ← find_eq_some_iff h₂, show find k l₁ = find k l₂ from h k]
  subst this
  rfl

theorem le_leastFree (n : Nat) (ks : List Nat) : n ≤ leastFree n ks := by
  induction ks generalizing n with
  | nil => exact Nat.le_refl n
  | cons k rest ih =>
    simp only [leastFree]
    split
    · exact ih n
    · split
      · exact Nat.le_of_succ_le (ih (n + 1))
      · exact Nat.le_refl n

private theorem not_mem_cons {n k : Nat} {ks : List Nat} (h : n ≠ k) (hs : n ∉ ks) :
    n ∉ k :: ks := fun hm => (List.mem_cons.1 hm).elim h hs

theorem leastFree_not_mem {n : Nat} {ks : List Nat} (h : ks.Pairwise (· < ·)) :
    leastFree n ks ∉ ks := by
  induction ks generalizing n with
  | nil => exact List.not_mem_nil
  | cons k rest ih =>
    obtain ⟨hk, hrest⟩ := List.pairwise_cons.1 h
    simp only [leastFree]
    split
    · have := le_leastFree n rest
      exact not_mem_cons (by omega) (ih hrest)
    · split
      · have := le_leastFree (n + 1) rest
        exact not_mem_cons (by omega) (ih hrest)
      · exact not_mem_cons (by omega) fun hm => by have := hk _ hm; omega

@[simp] theorem get?_firstFree (t : Table α) (floor : Nat) :
    t.get? (t.firstFree floor) = none := by
  have h : t.firstFree floor ∉ t.keys :=
    leastFree_not_mem (List.pairwise_map.2 t.ascending)
  rw [mem_keys, contains] at h
  simpa using h

end Table

end OnePage
