import Mathlib.Data.List.Basic
import Mathlib.Tactic.Common

set_option autoImplicit false

namespace Lib.SlotTable

-- A fixed row of slots, each free or holding one key. Operations scan the row
-- from the left and act on the first hit, so what the row means is the partial
-- map of its keys, provided no key sits in two slots.
variable {α κ : Type} (key : α → Option κ)

def Unique (table : List α) : Prop :=
  ∀ (i j : Nat) (a b : α) (k : κ), table[i]? = some a → table[j]? = some b →
    key a = some k → key b = some k → i = j

theorem set_read (table : List α) (i j : Nat) (a b : α) (read : (table.set i a)[j]? = some b) :
    (j = i ∧ b = a ∧ i < table.length) ∨ (j ≠ i ∧ table[j]? = some b) := by
  by_cases same : i = j
  · subst same
    rw [List.getElem?_set_self'] at read
    cases old : table[i]? with
    | none => simp [old] at read
    | some c =>
        have bound : i < table.length := (List.getElem?_eq_some_iff.mp old).1
        exact Or.inl ⟨rfl, by simpa [old] using read.symm, bound⟩
  · rw [List.getElem?_set_ne same] at read
    exact Or.inr ⟨Ne.symm same, read⟩

theorem unique_set (table : List α) (i : Nat) (a : α) (unique : Unique key table)
    (alone : ∀ k, key a = some k → ∀ j b, table[j]? = some b → key b = some k → j = i) :
    Unique key (table.set i a) := by
  intro x y b c k readX readY hitX hitY
  rcases set_read table i x a b readX with ⟨xi, rfl, _⟩ | ⟨_, oldX⟩
  · rcases set_read table i y b c readY with ⟨yi, _, _⟩ | ⟨_, oldY⟩
    · exact xi.trans yi.symm
    · exact xi.trans (alone k hitX y c oldY hitY).symm
  · rcases set_read table i y a c readY with ⟨yi, rfl, _⟩ | ⟨_, oldY⟩
    · exact (alone k hitY x b oldX hitX).trans yi.symm
    · exact unique x y b c k oldX oldY hitX hitY

def Thinned (table next : List α) : Prop :=
  ∀ (i : Nat) (a : α) (k : κ), next[i]? = some a → key a = some k → table[i]? = some a

theorem unique_thinned (table next : List α) (unique : Unique key table) (thinned : Thinned key table next) :
    Unique key next := by
  intro i j a b k readA readB hitA hitB
  exact unique i j a b k (thinned i a k readA hitA) (thinned j b k readB hitB) hitA hitB

theorem thinned_map (table : List α) (pass : α → α)
    (keeps : ∀ a k, key (pass a) = some k → pass a = a) : Thinned key table (table.map pass) := by
  intro i a k read hit
  rw [List.getElem?_map, Option.map_eq_some_iff] at read
  obtain ⟨old, slot, rfl⟩ := read
  rwa [keeps old k hit]

theorem thinned_truncate (table : List α) (i n : Nat) (free : α) (unkeyed : key free = none) :
    Thinned key table (table.take i ++ List.replicate n free) := by
  intro j a k read hit
  rw [List.getElem?_append] at read
  split at read
  · rw [List.getElem?_take] at read
    split at read
    · exact read
    · cases read
  · have same : a = free := List.eq_of_mem_replicate (List.mem_of_getElem? read)
    rw [same, unkeyed] at hit
    cases hit

variable [DecidableEq κ]

def lookup (k : κ) (table : List α) : Option α := table.find? fun slot => decide (key slot = some k)

theorem lookup_some_slot (k : κ) (table : List α) (a : α) (found : lookup key k table = some a) :
    ∃ i : Nat, table[i]? = some a ∧ key a = some k := by
  have hit : key a = some k := by simpa using List.find?_some found
  obtain ⟨i, read⟩ := List.getElem?_of_mem (List.mem_of_find?_eq_some found)
  exact ⟨i, read, hit⟩

theorem lookup_none_slot (k : κ) (table : List α) (absent : lookup key k table = none) (a : α)
    (member : a ∈ table) : key a ≠ some k := by
  simpa using List.find?_eq_none.mp absent a member

theorem lookup_unique (k : κ) (table : List α) (i : Nat) (a : α) (unique : Unique key table)
    (read : table[i]? = some a) (hit : key a = some k) : lookup key k table = some a := by
  cases found : lookup key k table with
  | none => exact absurd hit (lookup_none_slot key k table found a (List.mem_of_getElem? read))
  | some b =>
      obtain ⟨j, readOther, hitOther⟩ := lookup_some_slot key k table b found
      have same : i = j := unique i j a b k read readOther hit hitOther
      subst same
      exact readOther.symm.trans read

theorem lookup_some_iff (k : κ) (table : List α) (a : α) (unique : Unique key table) :
    lookup key k table = some a ↔ ∃ i : Nat, table[i]? = some a ∧ key a = some k := by
  constructor
  · exact lookup_some_slot key k table a
  · rintro ⟨i, read, hit⟩
    exact lookup_unique key k table i a unique read hit

theorem lookup_none_of_free (k : κ) (table : List α) (free : ∀ a ∈ table, key a ≠ some k) :
    lookup key k table = none := by
  cases found : lookup key k table with
  | none => rfl
  | some a =>
      obtain ⟨i, read, hit⟩ := lookup_some_slot key k table a found
      exact absurd hit (free a (List.mem_of_getElem? read))

theorem scan_some_slot (k : κ) (table : List α) (i : Nat)
    (found : table.findIdx? (fun slot => decide (key slot = some k)) = some i) :
    ∃ a, table[i]? = some a ∧ key a = some k := by
  obtain ⟨bound, hit, _⟩ := List.findIdx?_eq_some_iff_getElem.mp found
  exact ⟨table[i], List.getElem?_eq_getElem bound, by simpa using hit⟩

theorem scan_none_lookup (k : κ) (table : List α)
    (absent : table.findIdx? (fun slot => decide (key slot = some k)) = none) : lookup key k table = none := by
  apply lookup_none_of_free
  intro a member
  simpa using List.findIdx?_eq_none_iff.mp absent a member

theorem lookup_set_self (table : List α) (i : Nat) (a : α) (k : κ) (unique : Unique key (table.set i a))
    (bound : i < table.length) (hit : key a = some k) : lookup key k (table.set i a) = some a := by
  apply lookup_unique key k (table.set i a) i a unique
  · simp [bound]
  · exact hit

theorem lookup_set_frame (table : List α) (i : Nat) (a : α) (k : κ)
    (old : ∀ b, table[i]? = some b → key b ≠ some k) (fresh : key a ≠ some k) :
    lookup key k (table.set i a) = lookup key k table := by
  induction table generalizing i with
  | nil => rfl
  | cons head tail ih =>
      cases i with
      | zero =>
          have headMiss : key head ≠ some k := old head rfl
          simp [lookup, headMiss, fresh]
      | succ i =>
          have rest := ih i fun b read => old b (by simpa using read)
          by_cases hit : key head = some k
          · simp [lookup, hit]
          · simpa [lookup, hit] using rest

theorem lookup_set_lost (table : List α) (i : Nat) (a : α) (k : κ) (unique : Unique key table)
    (fresh : key a ≠ some k) :
    lookup key k (table.set i a) = lookup key k table ∨ lookup key k (table.set i a) = none := by
  cases found : lookup key k (table.set i a) with
  | none => exact Or.inr rfl
  | some b =>
      obtain ⟨j, read, hit⟩ := lookup_some_slot key k (table.set i a) b found
      rcases set_read table i j a b read with ⟨_, rfl, _⟩ | ⟨_, old⟩
      · exact absurd hit fresh
      · exact Or.inl (lookup_unique key k table j b unique old hit).symm

theorem lookup_thinned (table next : List α) (k : κ) (unique : Unique key table)
    (thinned : Thinned key table next) : lookup key k next = lookup key k table ∨ lookup key k next = none := by
  cases found : lookup key k next with
  | none => exact Or.inr rfl
  | some a =>
      obtain ⟨i, read, hit⟩ := lookup_some_slot key k next a found
      exact Or.inl (lookup_unique key k table i a unique (thinned i a k read hit) hit).symm

theorem lookup_map (table : List α) (pass : α → α) (keep : α → Bool) (k : κ) (unique : Unique key table)
    (kept : ∀ a, keep a = true → pass a = a) (freed : ∀ a k, keep a = false → key (pass a) ≠ some k) :
    lookup key k (table.map pass) = (lookup key k table).filter keep := by
  have keeps : ∀ a k, key (pass a) = some k → pass a = a := by
    intro a k hit
    cases verdict : keep a with
    | true => exact kept a verdict
    | false => exact absurd hit (freed a k verdict)
  have passUnique := unique_thinned key table (table.map pass) unique (thinned_map key table pass keeps)
  apply Option.ext
  intro a
  rw [lookup_some_iff key k (table.map pass) a passUnique, Option.filter_eq_some_iff,
    lookup_some_iff key k table a unique]
  constructor
  · rintro ⟨i, read, hit⟩
    rw [List.getElem?_map, Option.map_eq_some_iff] at read
    obtain ⟨old, slot, rfl⟩ := read
    have same := keeps old k hit
    refine ⟨⟨i, by rwa [same], hit⟩, ?_⟩
    cases verdict : keep (pass old) with
    | true => rfl
    | false => exact absurd (by rw [same]; exact hit) (freed (pass old) k verdict)
  · rintro ⟨⟨i, slot, hit⟩, verdict⟩
    refine ⟨i, ?_, hit⟩
    rw [List.getElem?_map, slot]
    exact congrArg some (kept a verdict)

end Lib.SlotTable
