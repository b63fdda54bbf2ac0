import Ftm50s.Firewall.Page
import Ftm50s.Lib.Numbered

set_option autoImplicit false

namespace Ftm50s.Firewall.Editor

open Lib.Text Lib.Decimal Lib.Numbered Ftm50s.Cgi

-- The rows of control_table. The button of the footer calls onAddHost, unless
-- the loop of onRemoveHost has written another call into it.
inductive TableRow where
  | header
  | rule (row : Row)
  | footer (removes : Option Nat)
deriving DecidableEq, Repr

abbrev Table := List TableRow

-- The page as it is delivered
def controlTable : Table := [.header, .footer none]

-- A text field drops line breaks from its value.
def fieldText (text : Bytes) : Bytes := text.filter fun c => c != 10 && c != 13

def hostRow (index : Nat) (sip proto dport : Bytes) : Row :=
  let any := decide (sip = ascii "0.0.0.0")
  { index := index
    anyType := any
    resetsSip := any
    sip := fieldText sip
    readOnly := any
    proto := selectValue protocolOptions proto
    dport := fieldText dport
    removeArg := index }

def addHost (table : Table) (sip proto dport : Bytes) : Table :=
  let index := table.length - 1
  table.insertIdx index (.rule (hostRow index sip proto dport))

def onAddHost (table : Table) : Table := addHost table (ascii "0.0.0.0") (ascii "all") (ascii "0")

def place (index : Nat) (row : Row) : Row := { row with index := index, removeArg := index }

-- The body of the loop in onRemoveHost. The last cell of the header has a text,
-- which has no setAttribute.
def writeNumber (index : Nat) : TableRow → Option TableRow
  | .header => none
  | .rule row => some (.rule (place index row))
  | .footer _ => some (.footer (some index))

def onRemoveHost (table : Table) (index : Nat) : Table :=
  if 0 < index ∧ index < table.length - 1 then
    let rest := table.eraseIdx index
    rewriteLoop writeNumber (rest.length - 1 - index) index rest
  else table

-- What the user does in the fields of a row
inductive RowEvent where
  | chooseType (any : Bool)
  | typeSip (text : Bytes)
  | chooseProto (value : Bytes)
  | typePort (text : Bytes)
deriving DecidableEq, Repr

-- Only another value of the selector raises onchange.
def chooseType (any : Bool) (row : Row) : Row :=
  if row.anyType = any then row
  else { row with anyType := any, sip := if row.resetsSip then ascii "0.0.0.0" else row.sip, readOnly := any }

def rowEvent (row : Row) : RowEvent → Row
  | .chooseType any => chooseType any row
  | .typeSip text => if row.readOnly then row else { row with sip := fieldText text }
  | .chooseProto value => if protocolOptions.contains value then { row with proto := value } else row
  | .typePort text => { row with dport := fieldText text }

inductive Action where
  | add (sip proto dport : Bytes)
  | press (position : Nat)
  | event (position : Nat) (event : RowEvent)
deriving DecidableEq, Repr

def press (table : Table) (position : Nat) : Table :=
  match table[position]? with
  | some (.rule row) => onRemoveHost table row.removeArg
  | some (.footer none) => onAddHost table
  | some (.footer (some index)) => onRemoveHost table index
  | _ => table

def inRule (change : Row → Row) : TableRow → TableRow
  | .rule row => .rule (change row)
  | other => other

def step (table : Table) : Action → Table
  | .add sip proto dport => addHost table sip proto dport
  | .press position => press table position
  | .event position event => table.modify position (inRule fun row => rowEvent row event)

def run (table : Table) (actions : List Action) : Table := actions.foldl step table

-- The first child of a cell of another row has no value.
def cellTexts : TableRow → Bytes × Bytes × Bytes
  | .rule row => (row.sip, row.proto, row.dport)
  | _ => (ascii "undefined", ascii "undefined", ascii "undefined")

def hostPairs (table : Table) (i : Nat) : List Bytes :=
  match table[i]?.map cellTexts with
  | some (sip, proto, dport) =>
      [ascii "sip" ++ decimal (i - 1) ++ ascii "=" ++ sip, ascii "proto" ++ decimal (i - 1) ++ ascii "=" ++ proto,
        ascii "dport" ++ decimal (i - 1) ++ ascii "=" ++ dport]
  | none => []

-- The loop of onApply runs from the row behind the header to the row before the
-- last one.
def appliedPairs (table : Table) : List Bytes := (List.range' 1 (table.length - 2)).flatMap (hostPairs table)

def onApply (enable : Bool) (table : Table) : Bytes :=
  joinPairs (ascii "cmd=set") ((ascii "state=" ++ stateText enable) :: appliedPairs table)

def ruleRows (table : Table) : List Row :=
  table.filterMap fun
    | .rule row => some row
    | _ => none

def AtPosition (position : Nat) (row : Row) : Prop := row.index = position ∧ row.removeArg = position

-- The same editor over the rule rows alone
def layout (rows : List Row) : Table := .header :: rows.map .rule ++ [.footer none]

def addRow (rows : List Row) (sip proto dport : Bytes) : List Row := rows ++ [hostRow (rows.length + 1) sip proto dport]

def removeRow (rows : List Row) (k : Nat) : List Row := rows.take k ++ renumber place (1 + k) (rows.drop (k + 1))

def rowsStep (rows : List Row) : Action → List Row
  | .add sip proto dport => addRow rows sip proto dport
  | .press 0 => rows
  | .press (k + 1) =>
      if k < rows.length then removeRow rows k
      else if k = rows.length then addRow rows (ascii "0.0.0.0") (ascii "all") (ascii "0")
      else rows
  | .event 0 _ => rows
  | .event (k + 1) event => rows.modify k fun row => rowEvent row event

def rowsRun (actions : List Action) : List Row := actions.foldl rowsStep []

theorem layout_length (rows : List Row) : (layout rows).length = rows.length + 2 :=
  frame_length TableRow.header (TableRow.footer none) TableRow.rule rows

theorem layout_rule (rows : List Row) (position : Nat) (row : Row) :
    (layout rows)[position]? = some (.rule row) ↔ ∃ k, position = k + 1 ∧ rows[k]? = some row :=
  frame_row TableRow.header (.footer none) TableRow.rule (fun _ _ => TableRow.rule.inj) nofun nofun rows position row

theorem layout_footer (rows : List Row) : (layout rows)[rows.length + 1]? = some (.footer none) := by
  simp [layout]

theorem add_host_layout (rows : List Row) (sip proto dport : Bytes) :
    addHost (layout rows) sip proto dport = layout (addRow rows sip proto dport) := by
  have last : (layout rows).length - 1 = rows.length + 1 := by rw [layout_length]; rfl
  rw [addHost, last]
  exact frame_insert TableRow.header (.footer none) TableRow.rule rows (hostRow (rows.length + 1) sip proto dport)

theorem erase_layout (rows : List Row) (k : Nat) (bound : k < rows.length) :
    (layout rows).eraseIdx (k + 1) = layout (rows.eraseIdx k) :=
  frame_erase TableRow.header (.footer none) TableRow.rule rows k bound

theorem remove_host_layout (rows : List Row) (k : Nat) (bound : k < rows.length) :
    onRemoveHost (layout rows) (k + 1) = layout (removeRow rows k) := by
  have inside : 0 < k + 1 ∧ k + 1 < (layout rows).length - 1 := by
    rw [layout_length]
    omega
  have front : (TableRow.header :: (rows.take k).map .rule).length = k + 1 := by
    simp
    omega
  have erased : (layout rows).eraseIdx (k + 1) =
      TableRow.header :: (rows.take k).map .rule ++ (rows.drop (k + 1)).map .rule ++ [.footer none] := by
    rw [erase_layout rows k bound, List.eraseIdx_eq_take_drop_succ, layout, List.map_append]
    rfl
  have turns : ((layout rows).eraseIdx (k + 1)).length - 1 - (k + 1) = (rows.drop (k + 1)).length := by
    rw [List.length_eraseIdx, layout_length, if_pos (by omega), List.length_drop]
    omega
  have looped := rewrite_loop_rows writeNumber .rule place (rows.drop (k + 1)) (.header :: (rows.take k).map .rule)
    [.footer none]
    (fun _ _ => rfl)
  rw [onRemoveHost, if_pos inside]
  simp only [turns]
  rw [front] at looped
  rw [erased, looped, layout, removeRow, List.map_append, Nat.add_comm k 1]
  simp

theorem modify_layout (rows : List Row) (k : Nat) (change : Row → Row) :
    (layout rows).modify (k + 1) (inRule change) = layout (rows.modify k change) :=
  frame_modify TableRow.header (.footer none) TableRow.rule (inRule change) change rows k (fun _ => rfl) rfl

theorem press_layout (rows : List Row) (placed : Placed AtPosition 1 rows) (position : Nat) :
    press (layout rows) position = layout (rowsStep rows (.press position)) := by
  cases position with
  | zero => rfl
  | succ k =>
      rw [rowsStep]
      by_cases inside : k < rows.length
      · have found : rows[k]? = some rows[k] := List.getElem?_eq_getElem inside
        have number := (placed k rows[k] found).2
        rw [press, (layout_rule rows (k + 1) rows[k]).mpr ⟨k, rfl, found⟩, if_pos inside]
        simp only [number]
        rw [Nat.add_comm 1 k, remove_host_layout rows k inside]
      · rw [if_neg inside]
        by_cases last : k = rows.length
        · rw [press, last, layout_footer, if_pos rfl]
          exact add_host_layout rows _ _ _
        · have behind : (layout rows)[k + 1]? = none := by
            rw [List.getElem?_eq_none_iff, layout_length]
            omega
          rw [press, behind, if_neg last]

theorem step_layout (rows : List Row) (placed : Placed AtPosition 1 rows) (action : Action) :
    step (layout rows) action = layout (rowsStep rows action) := by
  cases action with
  | add sip proto dport => exact add_host_layout rows sip proto dport
  | press position => exact press_layout rows placed position
  | event position event =>
      cases position with
      | zero => rfl
      | succ k => exact modify_layout rows k fun row => rowEvent row event

theorem row_event_placed (event : RowEvent) (position : Nat) (row : Row) (placed : AtPosition position row) :
    AtPosition position (rowEvent row event) := by
  cases event with
  | chooseType any =>
      rw [rowEvent, chooseType]
      split <;> exact placed
  | typeSip text =>
      rw [rowEvent]
      split <;> exact placed
  | chooseProto value =>
      rw [rowEvent]
      split <;> exact placed
  | typePort text => exact placed

theorem add_row_placed (rows : List Row) (sip proto dport : Bytes) (placed : Placed AtPosition 1 rows) :
    Placed AtPosition 1 (addRow rows sip proto dport) := by
  refine placed_concat AtPosition 1 rows _ placed ?_
  rw [Nat.add_comm]
  exact ⟨rfl, rfl⟩

theorem step_placed (rows : List Row) (placed : Placed AtPosition 1 rows) (action : Action) :
    Placed AtPosition 1 (rowsStep rows action) := by
  cases action with
  | add sip proto dport => exact add_row_placed rows sip proto dport placed
  | press position =>
      cases position with
      | zero => exact placed
      | succ k =>
          rw [rowsStep]
          split
          case isTrue inside => exact placed_erase AtPosition place (fun _ _ => ⟨rfl, rfl⟩) 1 k rows inside placed
          case isFalse _ =>
            split
            · exact add_row_placed rows _ _ _ placed
            · exact placed
  | event position event =>
      cases position with
      | zero => exact placed
      | succ k => exact placed_modify AtPosition _ (row_event_placed event) 1 k rows placed

theorem rows_run_snoc (before : List Action) (action : Action) :
    rowsRun (before ++ [action]) = rowsStep (rowsRun before) action := by
  rw [rowsRun, List.foldl_concat, rowsRun]

theorem run_layout (actions : List Action) :
    run controlTable actions = layout (rowsRun actions) ∧ Placed AtPosition 1 (rowsRun actions) := by
  induction actions using List.reverseRecOn with
  | nil => exact ⟨rfl, placed_nil AtPosition 1⟩
  | append_singleton before action ih =>
      obtain ⟨same, placed⟩ := ih
      have ran : run controlTable (before ++ [action]) = step (run controlTable before) action := by
        rw [run, List.foldl_concat, run]
      rw [rows_run_snoc, ran, same]
      exact ⟨step_layout _ placed action, step_placed _ placed action⟩

theorem host_pairs_rows (rows : List Row) (front back : Table) (header : 0 < front.length) :
    (List.range' front.length rows.length).flatMap (hostPairs (front ++ rows.map .rule ++ back)) =
      rowsPairs (front.length - 1) rows := by
  induction rows generalizing front with
  | nil => rfl
  | cons row rest ih =>
      have shifted : front ++ (row :: rest).map TableRow.rule ++ back = front ++ [.rule row] ++ rest.map .rule ++
        back := by simp
      have entry : (front ++ (row :: rest).map TableRow.rule ++ back)[front.length]? = some (.rule row) := by simp
      have here : hostPairs (front ++ (row :: rest).map .rule ++ back) front.length =
        rowPairs (front.length - 1) row := by
        rw [hostPairs, entry]
        rfl
      have later := ih (front ++ [.rule row]) (by simp)
      rw [List.length_append, List.length_singleton, Nat.add_sub_cancel, ← shifted] at later
      rw [List.length_cons, List.range'_succ, List.flatMap_cons, here, later, rowsPairs, Nat.sub_add_cancel header]

theorem applied_pairs_layout (rows : List Row) : appliedPairs (layout rows) = rowsPairs 0 rows := by
  have pairs := host_pairs_rows rows [.header] [.footer none] (by simp)
  rw [appliedPairs, layout_length]
  exact pairs

theorem on_apply_layout (enable : Bool) (rows : List Row) :
    onApply enable (layout rows) = Firewall.onApply ⟨enable, rows⟩ := by
  rw [onApply, applied_pairs_layout, Firewall.onApply]

theorem field_text_plain (text : Bytes) (single : (10 : UInt8) ∉ text ∧ (13 : UInt8) ∉ text) :
    fieldText text = text := by
  rw [fieldText, List.filter_eq_self]
  intro c member
  have feed : c ≠ 10 := fun same => single.1 (same ▸ member)
  have back : c ≠ 13 := fun same => single.2 (same ▸ member)
  simp [feed, back]

theorem add_host_page (page : Page) (sip proto dport : Bytes) (sipSingle : (10 : UInt8) ∉ sip ∧ (13 : UInt8) ∉ sip)
    (dportSingle : (10 : UInt8) ∉ dport ∧ (13 : UInt8) ∉ dport) :
    addHost (layout page.rows) sip proto dport = layout (Firewall.addHost page sip proto dport).rows := by
  rw [add_host_layout, addRow, hostRow, field_text_plain sip sipSingle, field_text_plain dport dportSingle]
  rfl

theorem rule_rows_layout (rows : List Row) : ruleRows (layout rows) = rows := by
  simp [ruleRows, layout, List.filterMap_map]

-- A row without its numbers
def unnumbered : TableRow → TableRow := inRule (place 0)

theorem unnumbered_layout (rows : List Row) : (layout rows).map unnumbered = layout (rows.map (place 0)) := by
  simp [layout, unnumbered, inRule, Function.comp_def]

theorem remove_row_forgets (rows : List Row) (k : Nat) :
    (removeRow rows k).map (place 0) = (rows.map (place 0)).eraseIdx k := by
  rw [removeRow, List.map_append, renumber_map place (place 0) fun _ _ => rfl, List.eraseIdx_eq_take_drop_succ,
    List.map_take,
    List.map_drop]

theorem editor_positions (enable : Bool) (actions : List Action) :
    (∀ position row, (run controlTable actions)[position]? = some (.rule row) →
        row.index = position ∧ row.removeArg = position ∧
          (press (run controlTable actions) position).map unnumbered =
            ((run controlTable actions).map unnumbered).eraseIdx position) ∧
      onApply enable (run controlTable actions) =
        joinPairs (ascii "cmd=set") ((ascii "state=" ++ stateText enable) :: rowsPairs 0
          (ruleRows (run controlTable actions))) := by
  obtain ⟨same, placed⟩ := run_layout actions
  rw [same, rule_rows_layout, on_apply_layout]
  refine ⟨fun position row found => ?_, rfl⟩
  obtain ⟨k, rfl, read⟩ := (layout_rule _ _ row).mp found
  have bound : k < (rowsRun actions).length := (List.getElem?_eq_some_iff.mp read).1
  obtain ⟨index, removeArg⟩ := placed k row read
  rw [Nat.add_comm] at index removeArg
  refine ⟨index, removeArg, ?_⟩
  rw [press_layout _ placed, rowsStep, if_pos bound, unnumbered_layout, unnumbered_layout, remove_row_forgets,
    erase_layout _ _ (by simpa using bound)]

-- Every row whose selector shows Any submits 0.0.0.0 under its number.
def AnyMeansAny (table : Table) : Prop :=
  ∀ position row, table[position]? = some (.rule row) → row.anyType = true →
    (appliedPairs table)[3 * (position - 1)]? = some (ascii "sip" ++ decimal (position - 1) ++ ascii "=" ++
    ascii "0.0.0.0")

-- The callback of the row resets the address, which it does when the row was
-- added with 0.0.0.0, or the field shows 0.0.0.0.
def mayShowAny (row : Row) : Bool := row.anyType || row.resetsSip || decide (row.sip = ascii "0.0.0.0")

-- The step switches no other row to Any.
def switchesClean (table : Table) : Action → Bool
  | .event position (.chooseType true) =>
      match table[position]? with
      | some (.rule row) => mayShowAny row
      | _ => true
  | _ => true

theorem rows_pairs_sip (rows : List Row) (i k : Nat) (row : Row) (read : rows[k]? = some row) :
    (rowsPairs i rows)[3 * k]? = some (ascii "sip" ++ decimal (i + k) ++ ascii "=" ++ row.sip) := by
  induction rows generalizing i k with
  | nil => cases read
  | cons other rest ih =>
      cases k with
      | zero =>
          obtain rfl := Option.some.inj read
          rfl
      | succ k =>
          have later := ih (i + 1) k read
          rw [Nat.add_assoc, Nat.add_comm 1 k] at later
          exact later

theorem any_means_any_iff (rows : List Row) :
    AnyMeansAny (layout rows) ↔ ∀ row ∈ rows, row.anyType = true → row.sip = ascii "0.0.0.0" := by
  rw [AnyMeansAny, applied_pairs_layout]
  constructor
  · intro means row member any
    obtain ⟨k, read⟩ := List.mem_iff_getElem?.mp member
    have sent := means (k + 1) row ((layout_rule rows (k + 1) row).mpr ⟨k, rfl, read⟩) any
    rw [Nat.add_sub_cancel, rows_pairs_sip rows 0 k row read, Nat.zero_add] at sent
    exact List.append_cancel_left (Option.some.inj sent)
  · intro each position row found any
    obtain ⟨k, rfl, read⟩ := (layout_rule rows position row).mp found
    rw [Nat.add_sub_cancel, rows_pairs_sip rows 0 k row read, each row (List.mem_of_getElem? read) any, Nat.zero_add]

-- A field under Any is locked and shows 0.0.0.0.
def Locked (row : Row) : Prop := row.anyType = true → row.sip = ascii "0.0.0.0" ∧ row.readOnly = true

theorem host_row_locked (index : Nat) (sip proto dport : Bytes) : Locked (hostRow index sip proto dport) := by
  intro any
  have same : sip = ascii "0.0.0.0" := by simpa [hostRow] using any
  subst same
  exact ⟨rfl, any⟩

theorem row_event_locked (row : Row) (locked : Locked row) (event : RowEvent)
    (clean : event = .chooseType true → mayShowAny row = true) : Locked (rowEvent row event) := by
  cases event with
  | chooseType any =>
      rw [rowEvent, chooseType]
      by_cases same : row.anyType = any
      · rwa [if_pos same]
      · rw [if_neg same]
        intro shows
        simp only at shows ⊢
        subst shows
        by_cases resets : row.resetsSip = true
        · exact ⟨if_pos resets, rfl⟩
        · have field : row.sip = ascii "0.0.0.0" := by simpa [mayShowAny, same, resets] using clean rfl
          exact ⟨by rw [if_neg resets, field], rfl⟩
  | typeSip text =>
      rw [rowEvent]
      by_cases fixed : row.readOnly = true
      · rwa [if_pos fixed]
      · rw [if_neg fixed]
        intro shows
        exact absurd (locked shows).2 fixed
  | chooseProto value =>
      rw [rowEvent]
      split <;> exact locked
  | typePort text => exact locked

theorem rows_step_locked (rows : List Row) (locked : ∀ row ∈ rows, Locked row) (action : Action)
    (clean : switchesClean (layout rows) action = true) : ∀ row ∈ rowsStep rows action, Locked row := by
  have added : ∀ sip proto dport, ∀ row ∈ addRow rows sip proto dport, Locked row := by
    intro sip proto dport row member
    rcases List.mem_append.mp member with old | new
    · exact locked row old
    · rw [List.mem_singleton.mp new]
      exact host_row_locked _ sip proto dport
  cases action with
  | add sip proto dport => exact added sip proto dport
  | press position =>
      cases position with
      | zero => exact locked
      | succ k =>
          rw [rowsStep]
          split
          · -- The rows that stay have the same fields under other numbers.
            intro row member
            have forgotten := List.mem_map_of_mem (f := place 0) member
            rw [remove_row_forgets] at forgotten
            obtain ⟨old, kept, same⟩ := List.mem_map.mp (List.mem_of_mem_eraseIdx forgotten)
            have oldLocked : Locked (place 0 old) := locked old kept
            rw [same] at oldLocked
            exact oldLocked
          · split
            · exact added _ _ _
            · exact locked
  | event position event =>
      cases position with
      | zero => exact locked
      | succ k =>
          intro row member
          obtain ⟨i, read⟩ := List.mem_iff_getElem?.mp member
          rw [rowsStep, List.getElem?_modify] at read
          obtain ⟨old, found, rfl⟩ := Option.map_eq_some_iff.mp read
          split
          case isTrue same =>
            subst same
            refine row_event_locked old (locked old (List.mem_of_getElem? found)) event ?_
            rintro rfl
            rwa [switchesClean, (layout_rule rows (k + 1) old).mpr ⟨k, rfl, found⟩] at clean
          case isFalse _ => exact locked old (List.mem_of_getElem? found)

theorem rows_run_locked (before : List Action)
    (clean : ∀ front action, front ++ [action] <+: before → switchesClean (run controlTable front) action = true) :
    ∀ row ∈ rowsRun before, Locked row := by
  induction before using List.reverseRecOn with
  | nil => exact nofun
  | append_singleton front action ih =>
      have earlier := ih fun other next within => clean other next (within.trans (List.prefix_append front [action]))
      have last := clean front action (List.prefix_refl _)
      rw [(run_layout front).1] at last
      rw [rows_run_snoc]
      exact rows_step_locked _ earlier action last

-- The switch to Any leaves the address of a row that was added with another one.
theorem unclean_switch (rows : List Row) (action : Action) (unclean : switchesClean (layout rows) action = false) :
    ∃ row ∈ rowsStep rows action, row.anyType = true ∧ row.sip ≠ ascii "0.0.0.0" := by
  unfold switchesClean at unclean
  split at unclean
  case h_1 position =>
    split at unclean
    case h_1 row found =>
      obtain ⟨k, rfl, read⟩ := (layout_rule rows position row).mp found
      obtain ⟨⟨single, keeps⟩, other⟩ : (row.anyType = false ∧ row.resetsSip = false) ∧ row.sip ≠ ascii "0.0.0.0" := by
        simpa [mayShowAny] using unclean
      refine ⟨chooseType true row, ?_, ?_, ?_⟩
      · rw [rowsStep, List.mem_iff_getElem?]
        exact ⟨k, by simp [read, rowEvent]⟩
      · simp [chooseType, single]
      · simpa [chooseType, single, keeps] using other
    case h_2 => cases unclean
  case h_2 => cases unclean

theorem any_rule_iff (actions : List Action) :
    (∀ before, before <+: actions → AnyMeansAny (run controlTable before)) ↔
      ∀ before action, before ++ [action] <+: actions → switchesClean (run controlTable before) action = true := by
  constructor
  · intro means before action within
    by_contra unclean
    rw [Bool.not_eq_true, (run_layout before).1] at unclean
    obtain ⟨row, member, any, other⟩ := unclean_switch _ action unclean
    have after := means (before ++ [action]) within
    rw [(run_layout _).1, any_means_any_iff, rows_run_snoc] at after
    exact other (after row member any)
  · intro clean before within
    have locked := rows_run_locked before fun front action inside => clean front action (inside.trans within)
    rw [(run_layout before).1, any_means_any_iff]
    exact fun row member any => (locked row member any).1

def singleThenAny : List Action :=
  [.add (ascii "10.0.0.7") (ascii "tcp") (ascii "80"), .event 1 (.chooseType true)]

theorem any_row_keeps_address : ¬ ∀ actions : List Action, AnyMeansAny (run controlTable actions) := by
  intro means
  have sent := means singleThenAny 1 ⟨1, true, false, ascii "10.0.0.7", true, ascii "tcp", ascii "80", 1⟩
    (by decide) rfl
  exact absurd sent (by decide)

end Ftm50s.Firewall.Editor
