import Ftm50s.Firewall.Editor

set_option autoImplicit false

namespace Ftm50s.Dhcp.Editor

open Lib.Text Lib.Numbered
open Ftm50s.Firewall.Editor (fieldText)

-- A row of static_lease: the number it was given, its two fields, and the argument
-- of its button
structure LeaseRow where
  index : Nat
  mac : Bytes
  ip : Bytes
  removeArg : Nat
deriving DecidableEq, Repr

inductive TableRow where
  | header
  | lease (row : LeaseRow)
  | footer
deriving DecidableEq, Repr

abbrev Table := List TableRow

-- The page as it is delivered
def staticLease : Table := [.header, .footer]

-- none is an argument that the call leaves out.
def leaseRow (index : Nat) (macaddr ipaddr : Option Bytes) : LeaseRow :=
  match macaddr with
  | none => ⟨index, ascii "00:00:00:00:00:00", ascii "0.0.0.0", index⟩
  | some mac => ⟨index, fieldText mac, fieldText (ipaddr.getD (ascii "undefined")), index⟩

def onAddStaticLease (table : Table) (macaddr ipaddr : Option Bytes) : Table :=
  let index := table.length - 1
  table.insertIdx index (.lease (leaseRow index macaddr ipaddr))

-- The rows behind keep their buttons.
def onRemoveStaticLease (table : Table) (index : Nat) : Table :=
  if 0 < index ∧ index < table.length - 1 then table.eraseIdx index else table

def press (table : Table) (position : Nat) : Table :=
  match table[position]? with
  | some (.lease row) => onRemoveStaticLease table row.removeArg
  | some .footer => onAddStaticLease table none none
  | _ => table

inductive Action where
  | add (macaddr ipaddr : Option Bytes)
  | press (position : Nat)
  | typeMac (position : Nat) (text : Bytes)
  | typeIp (position : Nat) (text : Bytes)
deriving DecidableEq, Repr

def inLease (change : LeaseRow → LeaseRow) : TableRow → TableRow
  | .lease row => .lease (change row)
  | other => other

def step (table : Table) : Action → Table
  | .add macaddr ipaddr => onAddStaticLease table macaddr ipaddr
  | .press position => press table position
  | .typeMac position text => table.modify position (inLease fun row => { row with mac := fieldText text })
  | .typeIp position text => table.modify position (inLease fun row => { row with ip := fieldText text })

def run (table : Table) (actions : List Action) : Table := actions.foldl step table

def RemovesItself (table : Table) : Prop :=
  ∀ position row, table[position]? = some (.lease row) → press table position = table.eraseIdx position

-- The pressed row, if it is one of the leases, is the last of them.
def pressesLast (table : Table) : Action → Bool
  | .press position =>
      match table[position]? with
      | some (.lease _) => decide (position + 2 = table.length)
      | _ => true
  | _ => true

-- The same editor over the leases alone
def layout (rows : List LeaseRow) : Table := frame .header .lease .footer rows

def removeAt (rows : List LeaseRow) (index : Nat) : List LeaseRow :=
  if 0 < index ∧ index ≤ rows.length then rows.eraseIdx (index - 1) else rows

def addRow (rows : List LeaseRow) (macaddr ipaddr : Option Bytes) : List LeaseRow :=
  rows ++ [leaseRow (rows.length + 1) macaddr ipaddr]

def rowsStep (rows : List LeaseRow) : Action → List LeaseRow
  | .add macaddr ipaddr => addRow rows macaddr ipaddr
  | .press 0 => rows
  | .press (k + 1) =>
      match rows[k]? with
      | some row => removeAt rows row.removeArg
      | none => if k = rows.length then addRow rows none none else rows
  | .typeMac 0 _ => rows
  | .typeMac (k + 1) text => rows.modify k fun row => { row with mac := fieldText text }
  | .typeIp 0 _ => rows
  | .typeIp (k + 1) text => rows.modify k fun row => { row with ip := fieldText text }

def rowsRun (actions : List Action) : List LeaseRow := actions.foldl rowsStep []

def AtPosition (position : Nat) (row : LeaseRow) : Prop := row.index = position ∧ row.removeArg = position

theorem layout_lease (rows : List LeaseRow) (position : Nat) (row : LeaseRow) :
    (layout rows)[position]? = some (.lease row) ↔ ∃ k, position = k + 1 ∧ rows[k]? = some row :=
  frame_row .header .footer TableRow.lease (fun _ _ => TableRow.lease.inj) nofun nofun rows position row

theorem layout_footer (rows : List LeaseRow) : (layout rows)[rows.length + 1]? = some .footer := by
  simp [layout, frame]

theorem add_layout (rows : List LeaseRow) (macaddr ipaddr : Option Bytes) :
    onAddStaticLease (layout rows) macaddr ipaddr = layout (addRow rows macaddr ipaddr) := by
  have last : (layout rows).length - 1 = rows.length + 1 := by rw [layout, frame_length]; rfl
  rw [onAddStaticLease, last, layout, frame_insert]
  rfl

theorem remove_layout (rows : List LeaseRow) (index : Nat) :
    onRemoveStaticLease (layout rows) index = layout (removeAt rows index) := by
  rw [onRemoveStaticLease, removeAt]
  have length : (layout rows).length - 1 = rows.length + 1 := by rw [layout, frame_length]; rfl
  by_cases inside : 0 < index ∧ index ≤ rows.length
  · have erased := frame_erase .header .footer TableRow.lease rows (index - 1) (by omega)
    rw [Nat.sub_add_cancel inside.1] at erased
    rw [if_pos inside, if_pos (by omega), layout, erased, layout]
  · rw [if_neg inside, if_neg (by omega)]

theorem step_layout (rows : List LeaseRow) (action : Action) :
    step (layout rows) action = layout (rowsStep rows action) := by
  cases action with
  | add macaddr ipaddr => exact add_layout rows macaddr ipaddr
  | press position =>
      cases position with
      | zero => rfl
      | succ k =>
          rw [step, press, rowsStep]
          cases read : rows[k]? with
          | some row =>
              rw [(layout_lease rows (k + 1) row).mpr ⟨k, rfl, read⟩]
              exact remove_layout rows row.removeArg
          | none =>
              have outside := List.getElem?_eq_none_iff.mp read
              by_cases last : k = rows.length
              · simp only [last, layout_footer, if_true]
                exact add_layout rows none none
              · have behind : (layout rows)[k + 1]? = none := by
                  rw [List.getElem?_eq_none_iff, layout, frame_length]
                  omega
                simp only [behind, if_neg last]
  | typeMac position text =>
      cases position with
      | zero => rfl
      | succ k => exact frame_modify _ _ _ _ _ rows k (fun _ => rfl) rfl
  | typeIp position text =>
      cases position with
      | zero => rfl
      | succ k => exact frame_modify _ _ _ _ _ rows k (fun _ => rfl) rfl

theorem rows_run_snoc (before : List Action) (action : Action) :
    rowsRun (before ++ [action]) = rowsStep (rowsRun before) action := by
  rw [rowsRun, List.foldl_concat, rowsRun]

theorem run_layout (actions : List Action) : run staticLease actions = layout (rowsRun actions) := by
  rw [rowsRun, ← List.foldl_hom layout step_layout]
  rfl

theorem removes_itself_iff (rows : List LeaseRow) :
    RemovesItself (layout rows) ↔ ∀ k row, rows[k]? = some row → removeAt rows row.removeArg = rows.eraseIdx k := by
  have pressed : ∀ k row, rows[k]? = some row → press (layout rows) (k + 1) = layout (removeAt rows row.removeArg) := by
    intro k row read
    rw [press, (layout_lease rows (k + 1) row).mpr ⟨k, rfl, read⟩]
    exact remove_layout rows row.removeArg
  have erased : ∀ k row, rows[k]? = some row → (layout rows).eraseIdx (k + 1) = layout (rows.eraseIdx k) := by
    intro k row read
    exact frame_erase _ _ _ rows k (List.getElem?_eq_some_iff.mp read).1
  constructor
  · intro removes k row read
    have same := removes (k + 1) row ((layout_lease rows (k + 1) row).mpr ⟨k, rfl, read⟩)
    rw [pressed k row read, erased k row read] at same
    exact frame_injective _ _ _ (fun _ _ => TableRow.lease.inj) _ _ same
  · intro each position row found
    obtain ⟨k, rfl, read⟩ := (layout_lease rows position row).mp found
    rw [pressed k row read, erased k row read, each k row read]

theorem placed_removes_itself (rows : List LeaseRow) (placed : Placed AtPosition 1 rows) :
    RemovesItself (layout rows) := by
  rw [removes_itself_iff]
  intro k row read
  have bound := (List.getElem?_eq_some_iff.mp read).1
  have number := (placed k row read).2
  rw [removeAt, if_pos (by omega), number, Nat.add_sub_cancel_left]

theorem presses_last_rows (rows : List LeaseRow) (k : Nat) (row : LeaseRow) (read : rows[k]? = some row) :
    pressesLast (layout rows) (.press (k + 1)) = true ↔ k + 1 = rows.length := by
  rw [pressesLast, (layout_lease rows (k + 1) row).mpr ⟨k, rfl, read⟩, decide_eq_true_iff, layout, frame_length]
  omega

theorem add_row_placed (rows : List LeaseRow) (macaddr ipaddr : Option Bytes) (placed : Placed AtPosition 1 rows) :
    Placed AtPosition 1 (addRow rows macaddr ipaddr) := by
  refine placed_concat AtPosition 1 rows _ placed ?_
  rw [Nat.add_comm]
  cases macaddr <;> exact ⟨rfl, rfl⟩

theorem step_placed (rows : List LeaseRow) (placed : Placed AtPosition 1 rows) (action : Action)
    (last : pressesLast (layout rows) action = true) : Placed AtPosition 1 (rowsStep rows action) := by
  cases action with
  | add macaddr ipaddr => exact add_row_placed rows macaddr ipaddr placed
  | press position =>
      cases position with
      | zero => exact placed
      | succ k =>
          rw [rowsStep]
          cases read : rows[k]? with
          | some row =>
              have bound := (List.getElem?_eq_some_iff.mp read).1
              have number := (placed k row read).2
              have final := (presses_last_rows rows k row read).mp last
              rw [← List.take_append_drop k rows, placed_append] at placed
              simp only [removeAt, number, if_pos (show 0 < 1 + k ∧ 1 + k ≤ rows.length by omega),
                Nat.add_sub_cancel_left,
                List.eraseIdx_eq_take_drop_succ, final, List.drop_length, List.append_nil]
              exact placed.1
          | none =>
              simp only
              split
              · exact add_row_placed rows none none placed
              · exact placed
  | typeMac position text =>
      cases position with
      | zero => exact placed
      | succ k =>
          exact placed_modify AtPosition (fun row => { row with mac := fieldText text }) (fun _ _ held =>
            held) 1 k rows placed
  | typeIp position text =>
      cases position with
      | zero => exact placed
      | succ k =>
          exact placed_modify AtPosition (fun row => { row with ip := fieldText text }) (fun _ _ held =>
            held) 1 k rows placed

-- The row behind a removed one moves up and keeps its old argument.
theorem stale_button (rows : List LeaseRow) (placed : Placed AtPosition 1 rows) (k : Nat)
    (inner : k + 1 < rows.length) :
    ¬ RemovesItself (layout (rows.eraseIdx k)) := by
  intro removes
  have length := List.length_eraseIdx_of_lt (show k < rows.length by omega)
  have moved : (rows.eraseIdx k)[k]? = some rows[k + 1] := by
    rw [List.getElem?_eraseIdx_of_ge (le_refl k), List.getElem?_eq_getElem inner]
  have number : rows[k + 1].removeArg = k + 2 := by
    have held := (placed (k + 1) rows[k + 1] (List.getElem?_eq_getElem inner)).2
    omega
  have same := (removes_itself_iff (rows.eraseIdx k)).mp removes k rows[k + 1] moved
  rw [number, removeAt] at same
  by_cases inside : 0 < k + 2 ∧ k + 2 ≤ (rows.eraseIdx k).length
  · -- The button takes the next row, which has another number.
    rw [if_pos inside] at same
    have next : k + 2 < rows.length := by omega
    have entry := congrArg (fun list : List LeaseRow => list[k]?) same
    rw [List.getElem?_eraseIdx_of_lt (by omega), moved, List.getElem?_eraseIdx_of_ge (le_refl k),
      List.getElem?_eraseIdx_of_ge (by omega), List.getElem?_eq_getElem next] at entry
    have other := (placed (k + 2) rows[k + 2] (List.getElem?_eq_getElem next)).2
    rw [← Option.some.inj entry] at other
    omega
  · -- The button is dead.
    rw [if_neg inside] at same
    have shorter := congrArg List.length same
    rw [List.length_eraseIdx_of_lt (show k < (rows.eraseIdx k).length by omega)] at shorter
    omega

theorem inner_press (rows : List LeaseRow) (placed : Placed AtPosition 1 rows) (action : Action)
    (wrong : pressesLast (layout rows) action = false) :
    ∃ k, k + 1 < rows.length ∧ rowsStep rows action = rows.eraseIdx k := by
  cases action with
  | press position =>
      rw [pressesLast] at wrong
      split at wrong
      · rename_i row found
        obtain ⟨k, rfl, read⟩ := (layout_lease rows position row).mp found
        have bound := (List.getElem?_eq_some_iff.mp read).1
        have number := (placed k row read).2
        rw [decide_eq_false_iff_not, layout, frame_length] at wrong
        refine ⟨k, by omega, ?_⟩
        rw [rowsStep, read]
        simp only [removeAt, number, if_pos (show 0 < 1 + k ∧ 1 + k ≤ rows.length by omega), Nat.add_sub_cancel_left]
      · cases wrong
  | add macaddr ipaddr => cases wrong
  | typeMac position text => cases wrong
  | typeIp position text => cases wrong

theorem right_steps (actions : List Action) (removes : ∀ before, before <+: actions → RemovesItself
    (run staticLease before)) :
    Placed AtPosition 1 (rowsRun actions) ∧
      ∀ before action, before ++ [action] <+: actions → pressesLast (run staticLease before) action = true := by
  induction actions using List.reverseRecOn with
  | nil =>
      refine ⟨placed_nil AtPosition 1, fun before action within => ?_⟩
      have empty := List.prefix_nil.mp within
      simp at empty
  | append_singleton front last ih =>
      obtain ⟨placed, earlier⟩ := ih fun before within =>
        removes before (within.trans (List.prefix_append front [last]))
      have right : pressesLast (layout (rowsRun front)) last = true := by
        by_contra wrong
        obtain ⟨k, inner, erased⟩ := inner_press _ placed last (Bool.eq_false_of_not_eq_true wrong)
        have after := removes (front ++ [last]) (List.prefix_refl _)
        rw [run_layout, rows_run_snoc, erased] at after
        exact stale_button _ placed k inner after
      refine ⟨?_, fun before action within => ?_⟩
      · rw [rows_run_snoc]
        exact step_placed _ placed last right
      · rcases List.prefix_concat_iff.mp within with whole | inside
        · obtain ⟨same, one⟩ := List.append_inj' whole rfl
          rw [same, List.singleton_inj.mp one, run_layout]
          exact right
        · exact earlier before action inside

theorem run_placed (actions : List Action)
    (last : ∀ before action, before ++ [action] <+: actions → pressesLast (run staticLease before) action = true) :
    Placed AtPosition 1 (rowsRun actions) := by
  induction actions using List.reverseRecOn with
  | nil => exact placed_nil AtPosition 1
  | append_singleton front action ih =>
      have placed := ih fun before other within => last before other (within.trans (List.prefix_append front [action]))
      have right := last front action (List.prefix_refl _)
      rw [run_layout] at right
      rw [rows_run_snoc]
      exact step_placed _ placed action right

theorem lease_buttons_iff (actions : List Action) :
    (∀ before, before <+: actions → RemovesItself (run staticLease before)) ↔
      ∀ before action, before ++ [action] <+: actions → pressesLast (run staticLease before) action = true := by
  constructor
  · exact fun removes => (right_steps actions removes).2
  · intro last before within
    rw [run_layout]
    exact placed_removes_itself _ (run_placed before fun front action inside => last front action (inside.trans within))

-- Two leases, and the first of them goes: the button of the second is dead.
theorem second_lease_button_dead : ¬ ∀ actions, RemovesItself (run staticLease actions) := by
  intro removes
  have pressed := removes [.add none none, .add none none, .press 1] 1 (leaseRow 2 none none) (by decide)
  revert pressed
  decide

end Ftm50s.Dhcp.Editor
