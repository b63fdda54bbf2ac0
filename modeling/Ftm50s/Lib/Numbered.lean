import Mathlib.Data.List.InsertIdx
import Mathlib.Tactic.Common

set_option autoImplicit false

namespace Lib.Numbered

-- A table whose entries hold their own position, and the loop that writes the
-- positions again when an entry has gone.
variable {α β : Type}

-- A loop that rewrites the entries of a table in place, from position i on. none
-- is an entry that the body fails on, which ends the loop.
def rewriteLoop (write : Nat → α → Option α) : Nat → Nat → List α → List α
  | 0, _, table => table
  | turns + 1, i, table =>
      match table[i]?.bind (write i) with
      | some entry => rewriteLoop write turns (i + 1) (table.set i entry)
      | none => table

def renumber (write : Nat → β → β) (first : Nat) : List β → List β
  | [] => []
  | entry :: rest => write first entry :: renumber write (first + 1) rest

def Placed (holds : Nat → β → Prop) (first : Nat) (entries : List β) : Prop :=
  ∀ i entry, entries[i]? = some entry → holds (first + i) entry

-- A table with a fixed first and last entry
def frame (head : α) (embed : β → α) (last : α) (rows : List β) : List α := head :: rows.map embed ++ [last]

theorem insert_between (front back : List α) (entry : α) :
    (front ++ back).insertIdx front.length entry = front ++ entry :: back := by
  induction front with
  | nil => rfl
  | cons other front ih => rw [List.cons_append, List.length_cons, List.insertIdx_succ_cons, ih, List.cons_append]

theorem frame_length (head last : α) (embed : β → α) (rows : List β) :
    (frame head embed last rows).length = rows.length + 2 := by
  simp [frame]

theorem frame_row (head last : α) (embed : β → α) (injective : ∀ a b, embed a = embed b → a = b)
    (other : ∀ row, embed row ≠ head) (behind : ∀ row, embed row ≠ last) (rows : List β) (position : Nat) (row : β) :
    (frame head embed last rows)[position]? = some (embed row) ↔ ∃ k, position = k + 1 ∧ rows[k]? = some row := by
  cases position with
  | zero =>
      constructor
      · intro found
        exact absurd (Option.some.inj found).symm (other row)
      · rintro ⟨k, zero, _⟩
        omega
  | succ k =>
      simp only [frame, List.cons_append, List.getElem?_cons_succ, Nat.add_right_cancel_iff, exists_eq_left']
      by_cases inside : k < rows.length
      · rw [List.getElem?_append_left (by simpa using inside), List.getElem?_map, Option.map_eq_some_iff]
        constructor
        · rintro ⟨found, read, same⟩
          rwa [← injective found row same]
        · exact fun read => ⟨row, read, rfl⟩
      · rw [List.getElem?_eq_none (Nat.le_of_not_lt inside), List.getElem?_append_right (by simpa using inside),
          List.getElem?_singleton]
        split
        · constructor
          · intro found
            exact absurd (Option.some.inj found).symm (behind row)
          · exact nofun
        · exact ⟨nofun, nofun⟩

theorem frame_injective (head last : α) (embed : β → α) (injective : ∀ a b, embed a = embed b → a = b)
    (rows others : List β) (same : frame head embed last rows = frame head embed last others) : rows = others := by
  have images := List.append_cancel_right (List.cons.inj same).2
  exact (List.map_inj_right injective).mp images

theorem frame_insert (head last : α) (embed : β → α) (rows : List β) (row : β) :
    (frame head embed last rows).insertIdx (rows.length + 1) (embed row) = frame head embed last (rows ++ [row]) := by
  have number : rows.length + 1 = (head :: rows.map embed).length := by simp
  rw [frame, number, insert_between, frame, List.map_append]
  simp

theorem frame_erase (head last : α) (embed : β → α) (rows : List β) (k : Nat) (bound : k < rows.length) :
    (frame head embed last rows).eraseIdx (k + 1) = frame head embed last (rows.eraseIdx k) := by
  rw [frame, List.cons_append, List.eraseIdx_cons_succ, List.eraseIdx_append_of_lt_length (by simpa using bound),
    List.eraseIdx_map, frame, List.cons_append]

theorem frame_modify (head last : α) (embed : β → α) (change : α → α) (image : β → β) (rows : List β) (k : Nat)
    (inside : ∀ row, change (embed row) = embed (image row)) (fixed : change last = last) :
    (frame head embed last rows).modify (k + 1) change = frame head embed last (rows.modify k image) := by
  have general : (rows.map embed ++ [last]).modify k change = (rows.modify k image).map embed ++ [last] := by
    induction rows generalizing k with
    | nil => cases k <;> simp [fixed]
    | cons row rest ih =>
        cases k with
        | zero => simp [inside]
        | succ k => simp [ih]
  rw [frame, List.cons_append, List.modify_succ_cons, general, frame, List.cons_append]

theorem rewrite_loop_rows (write : Nat → α → Option α) (embed : β → α) (image : Nat → β → β) (rows : List β)
    (front back : List α) (total : ∀ i row, write i (embed row) = some (embed (image i row))) :
    rewriteLoop write rows.length front.length (front ++ rows.map embed ++ back) =
      front ++ (renumber image front.length rows).map embed ++ back := by
  induction rows generalizing front with
  | nil => rfl
  | cons row rest ih =>
      have entry : (front ++ (row :: rest).map embed ++ back)[front.length]? = some (embed row) := by simp
      have next : (front ++ (row :: rest).map embed ++ back).set front.length (embed (image front.length row)) =
          front ++ [embed (image front.length row)] ++ rest.map embed ++ back := by simp
      have later := ih (front ++ [embed (image front.length row)])
      rw [List.length_cons, rewriteLoop, entry, Option.bind_some, total]
      simp only [next]
      rw [List.length_append, List.length_singleton] at later
      rw [later, renumber, List.map_cons]
      simp

theorem renumber_map (write : Nat → β → β) (forget : β → α) (kept : ∀ i entry, forget (write i entry) = forget entry)
    (first : Nat) (entries : List β) : (renumber write first entries).map forget = entries.map forget := by
  induction entries generalizing first with
  | nil => rfl
  | cons entry rest ih => rw [renumber, List.map_cons, List.map_cons, kept, ih]

theorem placed_nil (holds : Nat → β → Prop) (first : Nat) : Placed holds first [] := fun i entry found => by cases found

theorem placed_cons (holds : Nat → β → Prop) (first : Nat) (entry : β) (rest : List β) :
    Placed holds first (entry :: rest) ↔ holds first entry ∧ Placed holds (first + 1) rest := by
  constructor
  · intro placed
    refine ⟨placed 0 entry rfl, fun i other found => ?_⟩
    rw [Nat.add_assoc, Nat.add_comm 1 i]
    exact placed (i + 1) other found
  · rintro ⟨here, later⟩ i other found
    cases i with
    | zero =>
        obtain rfl := Option.some.inj found
        exact here
    | succ i =>
        rw [Nat.add_comm i 1, ← Nat.add_assoc]
        exact later i other found

theorem placed_append (holds : Nat → β → Prop) (first : Nat) (front back : List β) :
    Placed holds first (front ++ back) ↔ Placed holds first front ∧ Placed holds (first + front.length) back := by
  induction front generalizing first with
  | nil => simp [placed_nil]
  | cons entry rest ih =>
      rw [List.cons_append, placed_cons, placed_cons, ih, List.length_cons, Nat.add_assoc, Nat.add_comm 1, and_assoc]

theorem placed_concat (holds : Nat → β → Prop) (first : Nat) (entries : List β) (entry : β)
    (placed : Placed holds first entries) (last : holds (first + entries.length) entry) : Placed holds first (entries ++
    [entry]) := by
  rw [placed_append, placed_cons]
  exact ⟨placed, last, placed_nil holds _⟩

theorem placed_renumber (holds : Nat → β → Prop) (write : Nat → β → β) (writes : ∀ i entry, holds i (write i entry))
    (first : Nat) (entries : List β) : Placed holds first (renumber write first entries) := by
  induction entries generalizing first with
  | nil => exact placed_nil holds first
  | cons entry rest ih => exact (placed_cons holds first _ _).mpr ⟨writes first entry, ih (first + 1)⟩

theorem placed_erase (holds : Nat → β → Prop) (write : Nat → β → β) (writes : ∀ i entry, holds i (write i entry))
    (first k : Nat) (entries : List β) (bound : k < entries.length) (placed : Placed holds first entries) :
    Placed holds first (entries.take k ++ renumber write (first + k) (entries.drop (k + 1))) := by
  have length : (entries.take k).length = k := List.length_take_of_le (Nat.le_of_lt bound)
  rw [← List.take_append_drop k entries, placed_append] at placed
  rw [placed_append, length]
  exact ⟨placed.1, placed_renumber holds write writes (first + k) _⟩

theorem placed_modify (holds : Nat → β → Prop) (change : β → β) (keeps : ∀ i entry, holds i entry → holds i
    (change entry)) (first k : Nat) (entries : List β) (placed : Placed holds first entries) : Placed holds first
      (entries.modify k change) := by
  intro i entry found
  rw [List.getElem?_modify] at found
  obtain ⟨old, read, rfl⟩ := Option.map_eq_some_iff.mp found
  split
  · exact keeps _ old (placed i old read)
  · exact placed i old read

end Lib.Numbered
