import Ftm50s.Firewall.RoundTrip
import Ftm50s.Cgi.Query

set_option autoImplicit false

namespace Ftm50s.Firewall

open Lib.Text Lib.Decimal Lib.Filter Ftm50s.Cgi

-- A rule row of control_table: the shown number, the type selector (true for
-- Any) and whether its callback also resets the address, the address field, the
-- protocol selector, the port field, and the argument of the remove button.
structure Row where
  index : Nat
  anyType : Bool
  resetsSip : Bool
  sip : Bytes
  readOnly : Bool
  proto : Bytes
  dport : Bytes
  removeArg : Nat
deriving DecidableEq, Repr

structure Page where
  enable : Bool
  rows : List Row
deriving DecidableEq, Repr

-- A select keeps a value that is one of its options, and is empty otherwise.
def selectValue (options : List Bytes) (value : Bytes) : Bytes := if value ∈ options then value else []

def protocolOptions : List Bytes := [ascii "tcp", ascii "udp", ascii "icmp"]

def addHost (page : Page) (sip proto dport : Bytes) : Page :=
  let index := page.rows.length + 1
  let any := decide (sip = ascii "0.0.0.0")
  { page with rows := page.rows ++ [⟨index, any, any, sip, any, selectValue protocolOptions proto, dport, index⟩] }

def onAddHost (page : Page) : Page := addHost page (ascii "0.0.0.0") (ascii "all") (ascii "0")

-- Text that an XML element gives back as it was printed: ASCII without markup.
-- Bytes from 128 on become other bytes on their way through the page, which is
-- in UTF-8.
def isXmlText (text : Bytes) : Bool :=
  (text.all fun c => 32 ≤ c && c ≤ 127 && c != 60 && c != 38) && !occurs (ascii "]]>") text

def entryTexts : Entry → List Bytes
  | .table szName => [szName]
  | .chain szName szPolicy => [szName, szPolicy]
  | .rule szPipe szDir szInterface szSIP szDIP szProto szSPort szDPort szPolicy =>
      [szPipe, szDir, szInterface, szSIP, szDIP, szProto, szSPort, szDPort, szPolicy]

-- The loop of onLoad; an element without text has no firstChild, and the
-- exception ends it.
def loadRules (page : Page) : List Entry → Page
  | [] => page
  | .rule _ szDir _ szSIP _ szProto _ szDPort _ :: rest =>
      if szDir = [] ∨ szSIP = [] ∨ szProto = [] ∨ szDPort = [] then page
      else loadRules (if szDir = ascii "IN" then addHost page szSIP szProto szDPort else page) rest
  | _ :: rest => loadRules page rest

-- none when some text of the answer is not shown as it was printed
def onLoad (answer : Bool × List Entry) : Option Page :=
  if (answer.2.flatMap entryTexts).all isXmlText then some (loadRules ⟨answer.1, []⟩ answer.2) else none

def stateText (enable : Bool) : Bytes := if enable then ascii "enabled" else ascii "disabled"

def rowPairs (i : Nat) (row : Row) : List Bytes :=
  [ascii "sip" ++ decimal i ++ ascii "=" ++ row.sip, ascii "proto" ++ decimal i ++ ascii "=" ++ row.proto,
    ascii "dport" ++ decimal i ++ ascii "=" ++ row.dport]

def rowsPairs (i : Nat) : List Row → List Bytes
  | [] => []
  | row :: rest => rowPairs i row ++ rowsPairs (i + 1) rest

-- The query of the address that onApply posts to. No value is encoded; what the
-- browser escapes by itself the server decodes to the same bytes.
def onApply (page : Page) : Bytes :=
  joinPairs (ascii "cmd=set") ((ascii "state=" ++ stateText page.enable) :: rowsPairs 0 page.rows)

def applied (page : Page) : Option Request := parseQuery (sent (onApply page))

def submitted (row : Row) : Rule := ⟨row.sip, row.proto, row.dport⟩

def ruleEntries (i : Nat) : List Rule → List (Bytes × Bytes)
  | [] => []
  | rule :: rest =>
      (ascii "sip" ++ decimal i, rule.sip) :: (ascii "proto" ++ decimal i, rule.proto) :: (ascii "dport" ++ decimal i, rule.dport) ::
        ruleEntries (i + 1) rest

def setEntry : Bytes × Bytes := (ascii "cmd", ascii "set")

def pageEntries (enable : Bool) (rules : List Rule) : List (Bytes × Bytes) :=
  (ascii "state", stateText enable) :: ruleEntries 0 rules

theorem cmd_bytes : ascii "cmd" = [99, 109, 100] := rfl

theorem state_bytes : ascii "state" = [115, 116, 97, 116, 101] := rfl

theorem sip_bytes : ascii "sip" = [115, 105, 112] := rfl

theorem proto_bytes : ascii "proto" = [112, 114, 111, 116, 111] := rfl

theorem dport_bytes : ascii "dport" = [100, 112, 111, 114, 116] := rfl

theorem rows_pairs_entries (i : Nat) (rows : List Row) : rowsPairs i rows = (ruleEntries i (rows.map submitted)).map pairText := by
  have mark : ascii "=" = [61] := rfl
  induction rows generalizing i with
  | nil => rfl
  | cons row rest ih =>
      rw [rowsPairs, ih (i + 1)]
      simp [rowPairs, ruleEntries, submitted, pairText, mark]

theorem on_apply_form (page : Page) :
    onApply page = formQuery setEntry (pageEntries page.enable (page.rows.map submitted)) := by
  rw [onApply, rows_pairs_entries]
  rfl

theorem rule_entries_named (i : Nat) (rules : List Rule) : ∀ field ∈ ruleEntries i rules, ∃ k, ∃ rule ∈ rules,
    field = (ascii "sip" ++ decimal k, rule.sip) ∨ field = (ascii "proto" ++ decimal k, rule.proto) ∨
      field = (ascii "dport" ++ decimal k, rule.dport) := by
  induction rules generalizing i with
  | nil => exact nofun
  | cons rule rest ih =>
      intro field member
      simp only [ruleEntries, List.mem_cons] at member
      rcases member with sip | proto | dport | later
      · exact ⟨i, rule, by simp, Or.inl sip⟩
      · exact ⟨i, rule, by simp, Or.inr (Or.inl proto)⟩
      · exact ⟨i, rule, by simp, Or.inr (Or.inr dport)⟩
      · obtain ⟨k, other, inside, named⟩ := ih (i + 1) field later
        exact ⟨k, other, by simp [inside], named⟩

theorem rule_entries_texts (prop : Bytes → Prop) (i : Nat) (rules : List Rule) (each : ∀ rule ∈ rules, prop rule.sip ∧
    prop rule.proto ∧ prop rule.dport) : ∀ field ∈ ruleEntries i rules, prop field.2 := by
  intro field member
  obtain ⟨k, rule, inside, named⟩ := rule_entries_named i rules field member
  obtain ⟨sip, proto, dport⟩ := each rule inside
  rcases named with rfl | rfl | rfl
  · exact sip
  · exact proto
  · exact dport

theorem rule_entries_plain (i : Nat) (rules : List Rule) :
    ∀ field ∈ ruleEntries i rules, isPlainName field.1 = true := by
  intro field member
  obtain ⟨k, rule, _, rfl | rfl | rfl⟩ := rule_entries_named i rules field member
  · exact numbered_name_plain "sip" k (by decide)
  · exact numbered_name_plain "proto" k (by decide)
  · exact numbered_name_plain "dport" k (by decide)

theorem page_entries_plain (enable : Bool) (rules : List Rule) :
    ∀ field ∈ setEntry :: pageEntries enable rules, isPlainName field.1 = true := by
  simp only [pageEntries, List.forall_mem_cons]
  exact ⟨by decide, by decide, rule_entries_plain 0 rules⟩

theorem page_entries_texts (prop : Bytes → Prop) (enable : Bool) (rules : List Rule) (set : prop (ascii "set"))
    (state : prop (stateText enable)) (each : ∀ rule ∈ rules, prop rule.sip ∧ prop rule.proto ∧ prop rule.dport) :
    ∀ field ∈ setEntry :: pageEntries enable rules, prop field.2 := by
  simp only [pageEntries, List.forall_mem_cons]
  exact ⟨set, state, rule_entries_texts prop 0 rules each⟩

def Sends (rule : Rule) : Prop :=
  isSendable rule.sip = true ∧ isSendable rule.proto = true ∧ isSendable rule.dport = true

theorem applied_clean (page : Page) (clean : ∀ row ∈ page.rows, Sends (submitted row)) :
    applied page = some ⟨setEntry :: pageEntries page.enable (page.rows.map submitted)⟩ := by
  rw [applied, on_apply_form]
  apply form_arrives _ _ (page_entries_plain page.enable (page.rows.map submitted))
  apply page_entries_texts (fun text => isSendable text = true)
  · decide
  · cases page.enable <;> decide
  · intro rule member
    obtain ⟨row, inside, rfl⟩ := List.mem_map.mp member
    exact clean row inside

theorem rule_entries_found (i k : Nat) (rules : List Rule) :
    getData ⟨ruleEntries i rules⟩ (ascii "sip" ++ decimal (i + k)) = rules[k]?.map Rule.sip ∧
      getData ⟨ruleEntries i rules⟩ (ascii "proto" ++ decimal (i + k)) = rules[k]?.map Rule.proto ∧
      getData ⟨ruleEntries i rules⟩ (ascii "dport" ++ decimal (i + k)) = rules[k]?.map Rule.dport := by
  induction rules generalizing i k with
  | nil => exact ⟨rfl, rfl, rfl⟩
  | cons rule rest ih =>
      cases k with
      | zero => simp [getData, ruleEntries, sip_bytes, proto_bytes, dport_bytes]
      | succ k =>
          have other : decimal i ≠ decimal (i + (k + 1)) := fun same => by
            have equal := decimal_injective _ _ same
            omega
          have later := ih (i + 1) k
          rw [Nat.add_right_comm i 1 k, Nat.add_assoc] at later
          simpa [getData, ruleEntries, sip_bytes, proto_bytes, dport_bytes, other] using later

theorem page_entries_found (enable : Bool) (rules : List Rule) (i : Nat) :
    getData ⟨setEntry :: pageEntries enable rules⟩ (ascii "sip" ++ decimal i) = rules[i]?.map Rule.sip ∧
      getData ⟨setEntry :: pageEntries enable rules⟩ (ascii "proto" ++ decimal i) = rules[i]?.map Rule.proto ∧
      getData ⟨setEntry :: pageEntries enable rules⟩ (ascii "dport" ++ decimal i) = rules[i]?.map Rule.dport := by
  have rest := rule_entries_found 0 i rules
  rw [Nat.zero_add] at rest
  simpa [getData, setEntry, pageEntries, cmd_bytes, state_bytes, sip_bytes, proto_bytes, dport_bytes] using rest

theorem page_entries_lists (enable : Bool) (rules : List Rule) (clean : ∀ rule ∈ rules, Sends rule) :
    getstr ⟨setEntry :: pageEntries enable rules⟩ "state" = some (stateText enable) ∧
      Lists ⟨setEntry :: pageEntries enable rules⟩ rules := by
  have whole : ∀ (pick : Rule → Bytes), (∀ rule, Sends rule → isSendable (pick rule) = true) → ∀ i : Nat,
      (rules[i]?.map pick).map cstr = rules[i]?.map pick := by
    intro pick sends i
    cases found : rules[i]? with
    | none => rfl
    | some rule =>
        have nul := sendable_absent _ (sends rule (clean rule (List.mem_of_getElem? found))) 0 rfl
        simp only [Option.map_some, cstr_plain _ nul]
  refine ⟨by cases enable <;> rfl, ?_, ?_, ?_⟩
  · intro i
    rw [getstrf, (page_entries_found enable rules i).1, whole Rule.sip fun _ sends => sends.1]
  · intro i
    rw [getstrf, (page_entries_found enable rules i).2.1, whole Rule.proto fun _ sends => sends.2.1]
  · intro i
    rw [getstrf, (page_entries_found enable rules i).2.2, whole Rule.dport fun _ sends => sends.2.2]

def Arrives (text value : Bytes) : Prop := ∃ decoded, urlDecode (sent text) = some decoded ∧ value = cstr decoded

theorem applied_field (page : Page) (req : Request) (run : applied page = some req)
    (single : ∀ row ∈ page.rows, (38 : UInt8) ∉ row.sip ∧ (38 : UInt8) ∉ row.proto ∧ (38 : UInt8) ∉ row.dport)
    (stem : String) (i : Nat) (value : Bytes) (found : getstrf req stem i = some value) :
    ∃ field ∈ setEntry :: pageEntries page.enable (page.rows.map submitted), field.1 = ascii stem ++ decimal i ∧
      Arrives field.2 value := by
  have clean : ∀ field ∈ setEntry :: pageEntries page.enable (page.rows.map submitted), (38 : UInt8) ∉ field.2 := by
    apply page_entries_texts (fun text => (38 : UInt8) ∉ text)
    · decide
    · cases page.enable <;> decide
    · intro rule member
      obtain ⟨row, inside, rfl⟩ := List.mem_map.mp member
      exact single row inside
  rw [applied, on_apply_form] at run
  obtain ⟨stored, hit, rfl⟩ := Option.map_eq_some_iff.mp found
  obtain ⟨entry, entryHit, rfl⟩ := Option.map_eq_some_iff.mp hit
  have name : entry.1 = ascii stem ++ decimal i := by simpa using List.find?_some entryHit
  obtain ⟨field, inside, same, decoded, value, text⟩ :=
    form_values _ _ (page_entries_plain page.enable (page.rows.map submitted))
    clean req run entry (List.mem_of_find?_eq_some entryHit)
  refine ⟨field, inside, same ▸ name, decoded, value, ?_⟩
  rw [text, cstr_plain _ (cstr_no_nul decoded)]

theorem applied_values (page : Page) (req : Request) (run : applied page = some req)
    (single : ∀ row ∈ page.rows, (38 : UInt8) ∉ row.sip ∧ (38 : UInt8) ∉ row.proto ∧ (38 : UInt8) ∉ row.dport) (i : Nat)
      (value : Bytes) :
    (getstrf req "sip" i = some value → ∃ row ∈ page.rows, Arrives row.sip value) ∧
      (getstrf req "proto" i = some value → ∃ row ∈ page.rows, Arrives row.proto value) ∧
      (getstrf req "dport" i = some value → ∃ row ∈ page.rows, Arrives row.dport value) := by
  have other : ∀ stem ∈ ["sip", "proto", "dport"], ∀ k, ascii "cmd" ≠ ascii stem ++ decimal k ∧
    ascii "state" ≠ ascii stem ++ decimal k := by
    simp [cmd_bytes, state_bytes, sip_bytes, proto_bytes, dport_bytes]
  have row : ∀ stem ∈ ["sip", "proto", "dport"], getstrf req stem i = some value → ∃ k, ∃ row ∈ page.rows, ∃ field :
    Bytes × Bytes,
      field.1 = ascii stem ++ decimal i ∧ Arrives field.2 value ∧
      (field = (ascii "sip" ++ decimal k, row.sip) ∨ field = (ascii "proto" ++ decimal k, row.proto) ∨
        field = (ascii "dport" ++ decimal k, row.dport)) := by
    intro stem member found
    obtain ⟨field, inside, name, arrives⟩ := applied_field page req run single stem i value found
    simp only [pageEntries, List.mem_cons] at inside
    rcases inside with rfl | rfl | own
    · exact absurd name (other stem member i).1
    · exact absurd name (other stem member i).2
    · obtain ⟨k, rule, known, named⟩ := rule_entries_named 0 _ field own
      obtain ⟨row, here, rfl⟩ := List.mem_map.mp known
      exact ⟨k, row, here, field, name, arrives, named⟩
  refine ⟨fun found => ?_, fun found => ?_, fun found => ?_⟩
  · obtain ⟨k, row, here, field, name, arrives, rfl | rfl | rfl⟩ := row "sip" (by simp) found
    · exact ⟨row, here, arrives⟩
    · simp [sip_bytes, proto_bytes] at name
    · simp [sip_bytes, dport_bytes] at name
  · obtain ⟨k, row, here, field, name, arrives, rfl | rfl | rfl⟩ := row "proto" (by simp) found
    · simp [sip_bytes, proto_bytes] at name
    · exact ⟨row, here, arrives⟩
    · simp [proto_bytes, dport_bytes] at name
  · obtain ⟨k, row, here, field, name, arrives, rfl | rfl | rfl⟩ := row "dport" (by simp) found
    · simp [sip_bytes, dport_bytes] at name
    · simp [proto_bytes, dport_bytes] at name
    · exact ⟨row, here, arrives⟩

end Ftm50s.Firewall
