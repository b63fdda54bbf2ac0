import Ftm50s.Cgi.Query
import Ftm50s.Dhcp.RoundTrip
import Ftm50s.Lib.Scan
import Ftm50s.Syslog.Escaping

set_option autoImplicit false

namespace Ftm50s.Dhcp.LanChange

open Lib.Text Lib.Decimal Lib.Scan
open Ftm50s.Cgi
open Ftm50s.Syslog

abbrev Text := List Char

-- firstChild.nodeValue of an element: none without a child, and null for a child
-- that is an element itself
abbrev Child := Option (Option Text)

-- The elements of the answer in the browser's tree
inductive Node where
  | value (tag : Bytes) (child : Child)
  | lease (mac ip : Child)

-- An empty element has no child.
def nodeValue (text : Text) : Option Text := if text.isEmpty then none else some text

def childOf (text : Text) : Child := (nodeValue text).map some

def parseEntry : Entry → Option Node
  | .value tag text => (decodeXml (latin text)).map fun decoded => .value tag (childOf decoded)
  | .lease mac ip =>
      (decodeXml (latin mac)).bind fun macText => (decodeXml (latin ip)).map fun ipText =>
        .lease (childOf macText) (childOf ipText)

def entryTexts : Entry → List Bytes
  | .value _ text => [text]
  | .lease mac ip => [mac, ip]

def isMarked (entry : Entry) : Bool := (entryTexts entry).any fun text => text.contains 60

-- The tree of an answer whose texts have no markup in them, and none without one.
-- The LEASE elements of dumpleases that follow have other tags than those read here.
def plainElements (entries : List Entry) : Option (List Node) := entries.mapM parseEntry

-- responseXML.documentElement. What a text with markup in it becomes, and with it the
-- rest of the answer, is up to the browser's parser.
def documentElement (markup : List Entry → Option (List Node)) (entries : List Entry) : Option (List Node) :=
  if entries.any isMarked then markup entries else plainElements entries

-- getElementsByTagName(tag)[0].firstChild.nodeValue
def childAt (nodes : List Node) (tag : String) : Child :=
  (nodes.findSome? fun node =>
    match node with
    | .value other child => if other = ascii tag then some child else none
    | .lease _ _ => none).join

-- A value in a comparison or a concatenation, where null is a text like others
def printed (value : Option Text) : Text := value.getD "null".toList

def textOf (nodes : List Node) (tag : String) : Option Text := (childAt nodes tag).map printed

-- A value that is split, which null is not
def splitText (nodes : List Node) (tag : String) : Option Text := (childAt nodes tag).join

def leaseNodes (nodes : List Node) : List (Child × Child) :=
  nodes.filterMap fun node =>
    match node with
    | .value _ _ => none
    | .lease mac ip => some (mac, ip)

def staticLeases (nodes : List Node) : Option (List (Text × Text)) :=
  (leaseNodes nodes).mapM fun lease => lease.1.bind fun mac => lease.2.map fun ip => (printed mac, printed ip)

-- addr_arr[i] inside a concatenation
def fieldAt (text : Text) (i : Nat) : Text := (text.splitOn '.').getD i "undefined".toList

def joined (a b c d : Text) : Text := a ++ '.' :: (b ++ '.' :: (c ++ '.' :: d))

def moved (net_addr own : Text) : Text :=
  joined (fieldAt net_addr 0) (fieldAt net_addr 1) (fieldAt net_addr 2) (fieldAt own 3)

def flagText (flag : Bool) : Text := if flag then "true".toList else "false".toList

def leaseParams {α : Type} : Nat → List (α × α) → List (Bytes × α)
  | _, [] => []
  | i, lease :: rest =>
      (ascii "mac" ++ decimal i, lease.1) :: (ascii "ip" ++ decimal i, lease.2) :: leaseParams (i + 1) rest

structure Answer where
  interface : Text
  start : Text
  last : Text
  time : Text
  dns1 : Text
  dns2 : Text
  leases : List (Text × Text)

-- The fields of data behind its cmd
def requestData (enable_checked static_leases_checked : Bool) (answer : Answer) (net_addr : Text) :
    List (Bytes × Text) :=
  [(ascii "enable", flagText enable_checked), (ascii "if", answer.interface),
    (ascii "start", moved net_addr answer.start),
    (ascii "end", moved net_addr answer.last), (ascii "router", moved net_addr net_addr), (ascii "time", answer.time),
    (ascii "static", flagText static_leases_checked), (ascii "dns1", answer.dns1), (ascii "dns2", answer.dns2)] ++
    if answer.leases.length > 0 then leaseParams 0 answer.leases
    else [(ascii "mac0", "00:00:00:00:00:00".toList), (ascii "ip0", "0.0.0.0".toList)]

-- A text is loosely equal to true when it is the number one. The server prints 0 or 1.
def looselyTrue (text : Text) : Bool := decide (text = ['1'])

def saveDHCP (nodes : List Node) (ipaddr : List Text) : Option (List (Bytes × Text)) := do
  let status ← textOf nodes "STATUS"
  let static ← textOf nodes "STATIC"
  let if_value ← textOf nodes "INTERFACE"
  let ip_pool_start_value ← splitText nodes "START"
  let ip_pool_end_value ← splitText nodes "END"
  let _ ← splitText nodes "ROUTER"
  let lease_time_value ← textOf nodes "TIME"
  let dns1_value ← textOf nodes "DNS1"
  let dns2_value ← textOf nodes "DNS2"
  let static_leases ← staticLeases nodes
  let net_addr ← if if_value = "eth1".toList then ipaddr[1]? else ipaddr[0]?
  return requestData (decide (status = "running".toList)) (looselyTrue static)
    ⟨if_value, ip_pool_start_value, ip_pool_end_value, lease_time_value, dns1_value, dns2_value, static_leases⟩ net_addr

def setEntry : Bytes × Bytes := (ascii "cmd", ascii "set")

def isAscii (c : Char) : Bool := decide (c.toNat < 128)

def rawField (field : Bytes × Text) : Bytes × Bytes := (field.1, field.2.map Char.toUInt8)

-- The request that arrives. No value is encoded; what the browser makes of other
-- characters in an address is not one byte each.
def arrived (data : List (Bytes × Text)) : Option Request :=
  if data.all fun field => field.2.all isAscii then parseQuery (sent (formText (setEntry :: data.map rawField)))
  else none

-- loadDHCP: the status request, saveDHCP on its answer, and the set request
def loadDHCP (markup : List Entry → Option (List Node)) (running : Bool) (conf : Bytes) (ipaddr : List Text) :
    Option Request :=
  ((dhcpStatus running conf).bind (documentElement markup)).bind fun nodes => (saveDHCP nodes ipaddr).bind arrived

-- An address of four decimal fields
structure Dotted where
  a : Bytes
  b : Bytes
  c : Bytes
  d : Bytes
  decimal : ∀ field ∈ [a, b, c, d], field ≠ [] ∧ ∀ c ∈ field, isDigit c = true

-- The last field of own behind the network prefix of net
def Dotted.prefixed (net own : Dotted) : Bytes := net.a ++ 46 :: (net.b ++ 46 :: (net.c ++ 46 :: own.d))

def Dotted.text (address : Dotted) : Bytes := address.prefixed address

-- A configuration as the set request stores it, with addresses for the pool
structure StoredConfig where
  settings : Settings
  stored : Stored settings
  start : Dotted
  last : Dotted
  start_text : settings.start = start.text
  last_text : settings.last = last.text

def StoredConfig.file (config : StoredConfig) : Bytes := unlines (linesOf config.settings)

def StoredConfig.leases (config : StoredConfig) : List (Bytes × Bytes) := config.settings.leases.map upperLease

def flagBytes (flag : Bool) : Bytes := if flag then ascii "true" else ascii "false"

-- The settings with the network prefix changed and nothing else
def keptSettings (config : StoredConfig) (first second : Dotted) : Settings :=
  let net := if config.settings.interface = ascii "eth1" then second else first
  { config.settings with
    static := flagBytes (decide (config.settings.static = ascii "true"))
    start := net.prefixed config.start
    last := net.prefixed config.last
    router := net.text
    leases := config.leases }

structure Keeps (running : Bool) (config : StoredConfig) (first second : Dotted) (req : Request) : Prop where
  cmd : getstr req "cmd" = some (ascii "set")
  enable : getstr req "enable" = some (flagBytes running)
  gives : Gives req (keptSettings config first second)

-- The change of the address keeps the settings, whatever else is typed into the form.
def LanChangeKeeps (markup : List Entry → Option (List Node)) (running : Bool) (config : StoredConfig)
    (first second : Dotted) (more : List Dotted) : Prop :=
  ∃ req, loadDHCP markup running config.file ((first :: second :: more).map fun address => latin address.text) =
    some req ∧
    Keeps running config first second req

def keptTexts (config : StoredConfig) : List Bytes :=
  [config.settings.interface, config.settings.time, config.settings.dns1, config.settings.dns2] ++
    config.leases.flatMap fun lease => [lease.1, lease.2]

def runningItem (running : Bool) : String × Bytes := ("STATUS", if running then ascii "running" else ascii "stopped")

def statusItems (running : Bool) (settings : Settings) : List (String × Bytes) :=
  runningItem running :: reported settings

def statusEntries (running : Bool) (settings : Settings) : List Entry :=
  (statusItems running settings).map (fun item => .value (ascii item.1) item.2) ++
    (settings.leases.map upperLease).map fun lease => .lease lease.1 lease.2

-- The tree has the texts of the configuration, as they are viewed.
structure Shows (view : Bytes → Text) (running : Bool) (config : StoredConfig) (nodes : List Node) : Prop where
  status : textOf nodes "STATUS" = some (latin (runningItem running).2)
  static : textOf nodes "STATIC" = some (latin (staticFlag config.settings))
  interface : textOf nodes "INTERFACE" = some (view config.settings.interface)
  start : splitText nodes "START" = some (latin config.settings.start)
  last : splitText nodes "END" = some (latin config.settings.last)
  router : (splitText nodes "ROUTER").isSome = true
  time : textOf nodes "TIME" = some (view config.settings.time)
  dns1 : textOf nodes "DNS1" = some (view config.settings.dns1)
  dns2 : textOf nodes "DNS2" = some (view config.settings.dns2)
  leases : staticLeases nodes = some (config.leases.map fun lease => (view lease.1, view lease.2))

-- A text that both the XML and the address carry as it is
structure Carried (text : Bytes) : Prop where
  formed : wellFormed (latin text) = true
  ascii : ∀ c ∈ text, c < 128
  sendable : isSendable text = true

-- There is a lease, everything fits the arrays of the status branch, and the texts
-- are carried. The text of the router is only looked at.
structure Clear (markup : List Entry → Option (List Node)) (running : Bool) (config : StoredConfig) : Prop where
  leases : config.settings.leases ≠ []
  short : Short config.settings
  texts : ∀ text ∈ keptTexts config, Carried text
  router : wellFormed (latin config.settings.router) = true ∨
    60 ∈ config.settings.router ∧ ∃ nodes, markup (statusEntries running config.settings) = some nodes ∧
    Shows latin running config nodes

-- What the browser makes of a text that is well formed
def shown (text : Bytes) : Text := (decodeXml (latin text)).getD []

def nodeOf : Entry → Node
  | .value tag text => .value tag (childOf (shown text))
  | .lease mac ip => .lease (childOf (shown mac)) (childOf (shown ip))

theorem decode_formed (text : Bytes) (formed : wellFormed (latin text) = true) :
    decodeXml (latin text) = some (shown text) := by
  rw [shown, decodeXml, if_pos formed]
  rfl

theorem decode_broken (text : Bytes) (broken : ¬ wellFormed (latin text) = true) : decodeXml (latin text) = none := by
  rw [decodeXml, if_neg broken]

theorem parse_entry_formed (entry : Entry) (formed : ∀ text ∈ entryTexts entry, wellFormed (latin text) = true) :
    parseEntry entry = some (nodeOf entry) := by
  cases entry with
  | value tag text => rw [parseEntry, decode_formed text (formed text (by simp [entryTexts]))]; rfl
  | lease mac ip =>
      rw [parseEntry, decode_formed mac (formed mac (by simp [entryTexts])),
        decode_formed ip (formed ip (by simp [entryTexts]))]
      rfl

theorem parse_entry_broken (entry : Entry) (text : Bytes) (member : text ∈ entryTexts entry)
    (broken : ¬ wellFormed (latin text) = true) :
    parseEntry entry = none := by
  cases entry with
  | value tag own =>
      obtain rfl : text = own := by simpa [entryTexts] using member
      rw [parseEntry, decode_broken text broken]
      rfl
  | lease mac ip =>
      obtain rfl | rfl : text = mac ∨ text = ip := by simpa [entryTexts] using member
      · rw [parseEntry, decode_broken text broken]
        rfl
      · rw [parseEntry, decode_broken text broken]
        cases decodeXml (latin mac) <;> rfl

def Formed (entries : List Entry) : Prop := ∀ entry ∈ entries, ∀ text ∈ entryTexts entry, wellFormed (latin text) = true

theorem formed_unmarked (text : Bytes) (formed : wellFormed (latin text) = true) : (60 : UInt8) ∉ text := by
  intro member
  have mark : '<' ∈ latin text := (latin_mem 60 text).mpr member
  simp [wellFormed, mark] at formed

theorem entries_marked (entries : List Entry) :
    entries.any isMarked = true ↔ ∃ entry ∈ entries, ∃ text ∈ entryTexts entry, (60 : UInt8) ∈ text := by
  simp [isMarked, List.any_eq_true]

theorem document_formed (markup : List Entry → Option (List Node)) (entries : List Entry) (formed : Formed entries) :
    documentElement markup entries = some (entries.map nodeOf) := by
  have unmarked : ¬ entries.any isMarked = true := by
    rw [entries_marked]
    rintro ⟨entry, member, text, inside, mark⟩
    exact formed_unmarked text (formed entry member text inside) mark
  rw [documentElement, if_neg unmarked, plainElements]
  exact map_m_some parseEntry nodeOf entries fun entry member => parse_entry_formed entry (formed entry member)

theorem document_given (entries : List Entry) (given : (plainElements entries).isSome = true) : Formed entries := by
  intro entry member text inside
  by_contra broken
  obtain ⟨before, after, rfl⟩ := List.append_of_mem member
  rw [plainElements, map_m_none parseEntry before after entry (parse_entry_broken entry text inside broken)] at given
  cases given

theorem shown_given (text : Bytes) (stored : isStored text = true) (formed : wellFormed (latin text) = true) :
    nodeValue (shown text) = some (shown text) := by
  have given : latin text ≠ [] := by
    simpa [latin] using word_nonempty text (stored_spec text stored).1
  have nonempty := decode_xml_nonempty _ _ given (decode_formed text formed)
  rw [nodeValue, if_neg (by simpa using nonempty)]

theorem child_of_item (items : List (String × Text)) (rest : List Node) (tag : String) (text : Text)
    (distinct : (items.map fun item => ascii item.1).Nodup) (listed : (tag, text) ∈ items) :
    childAt ((items.map fun item => .value (ascii item.1) (childOf item.2)) ++ rest) tag = childOf text := by
  induction items with
  | nil => cases listed
  | cons item items ih =>
      rw [List.map_cons, List.nodup_cons] at distinct
      rcases List.mem_cons.mp listed with rfl | later
      · simp [childAt]
      · have other : ascii item.1 ≠ ascii tag := fun same =>
          distinct.1 (List.mem_map.mpr ⟨(tag, text), later, same.symm⟩)
        rw [← ih distinct.2 later]
        simp [childAt, other]

def statusTexts (running : Bool) (settings : Settings) : List (String × Text) :=
  (statusItems running settings).map fun item => (item.1, shown item.2)

theorem status_nodes (running : Bool) (settings : Settings) :
    (statusEntries running settings).map nodeOf =
      ((statusTexts running settings).map fun item => .value (ascii item.1) (childOf item.2)) ++
        (settings.leases.map upperLease).map fun lease =>
          .lease (childOf (shown lease.1)) (childOf (shown lease.2)) := by
  simp [statusEntries, statusTexts, nodeOf, Function.comp_def]

theorem status_tags (running : Bool) (settings : Settings) :
    ((statusTexts running settings).map fun item => ascii item.1).Nodup := by
  have tags : ((statusTexts running settings).map fun item => ascii item.1) =
      ["STATUS", "INTERFACE", "START", "END", "ROUTER", "TIME", "STATIC", "DNS1", "DNS2"].map ascii := rfl
  rw [tags]
  decide +kernel

theorem running_stored (running : Bool) : isStored (runningItem running).2 = true := by
  cases running <;> decide

theorem status_items_stored (running : Bool) (settings : Settings) (stored : Stored settings) :
    ∀ item ∈ statusItems running settings, isStored item.2 = true := by
  intro item member
  rcases List.mem_cons.mp member with rfl | later
  · exact running_stored running
  · exact (reported_stored settings stored item later).2

theorem status_child (running : Bool) (settings : Settings) (stored : Stored settings)
    (formed : Formed (statusEntries running settings)) (item : String × Bytes)
      (member : item ∈ statusItems running settings) :
    childAt ((statusEntries running settings).map nodeOf) item.1 = some (some (shown item.2)) := by
  have listed : (item.1, shown item.2) ∈ statusTexts running settings := List.mem_map.mpr ⟨item, member, rfl⟩
  have entry : Entry.value (ascii item.1) item.2 ∈ statusEntries running settings :=
    List.mem_append_left _ (List.mem_map.mpr ⟨item, member, rfl⟩)
  rw [status_nodes, child_of_item _ _ item.1 (shown item.2) (status_tags running settings) listed, childOf,
    shown_given item.2 (status_items_stored running settings stored item member)
      (formed _ entry item.2 (by simp [entryTexts]))]
  rfl

theorem status_leases (running : Bool) (settings : Settings) (stored : Stored settings)
    (formed : Formed (statusEntries running settings)) :
    staticLeases ((statusEntries running settings).map nodeOf) =
      some ((settings.leases.map upperLease).map fun lease => (shown lease.1, shown lease.2)) := by
  have nodes : leaseNodes ((statusEntries running settings).map nodeOf) =
      (settings.leases.map upperLease).map fun lease => (childOf (shown lease.1), childOf (shown lease.2)) := by
    rw [status_nodes, leaseNodes, List.filterMap_append]
    simp [List.filterMap_map, Function.comp_def]
  rw [staticLeases, nodes, List.mapM_map]
  apply map_m_some
  intro lease member
  obtain ⟨old, inside, rfl⟩ := List.mem_map.mp member
  have entry : Entry.lease (upperLease old).1 (upperLease old).2 ∈ statusEntries running settings :=
    List.mem_append_right _ (List.mem_map.mpr ⟨upperLease old, member, rfl⟩)
  have mac := shown_given _ (upper_stored old.1 (stored.leases old inside).1)
    (formed _ entry _ (by simp [entryTexts, upperLease]))
  have ip := shown_given _ (stored.leases old inside).2 (formed _ entry _ (by simp [entryTexts, upperLease]))
  simp only [Function.comp_apply, childOf, upperLease, mac, ip, Option.map_some, Option.bind_some]
  rfl

theorem shown_same (text : Bytes) (formed : wellFormed (latin text) = true) :
    shown text = latin text ↔ (38 : UInt8) ∉ text := by
  have plain : '&' ∉ latin text ↔ (38 : UInt8) ∉ text := not_congr (latin_mem 38 text)
  rw [← plain, ← and_iff_right (b := '&' ∉ latin text) formed, ← decode_xml_same, decode_formed text formed,
    Option.some_inj]

theorem raw_latin (text : Bytes) : (latin text).map Char.toUInt8 = text := by
  rw [latin, List.map_map]
  refine List.map_id'' (fun c => ?_) text
  rw [Function.comp_apply, ← UInt8.toNat_inj, Char.toUInt8, UInt32.toNat_toUInt8]
  have number := latin_number c
  have bound := c.toNat_lt
  rw [Char.toNat] at number
  omega

theorem latin_raw (text : Text) (plain : text.all isAscii = true) : latin (text.map Char.toUInt8) = text := by
  rw [latin, List.map_map]
  refine (List.map_congr_left fun c member => ?_).trans (List.map_id text)
  have small : c.toNat < 128 := by simpa [isAscii] using List.all_eq_true.mp plain c member
  have number := latin_number c.toUInt8
  rw [Char.toUInt8, UInt32.toNat_toUInt8] at number
  rw [Function.comp_apply, id, Char.ext_iff, ← UInt32.toNat_inj]
  change (Char.ofUInt8 c.val.toUInt8).toNat = c.toNat
  rw [number]
  change c.toNat % 256 = c.toNat
  omega

theorem latin_ascii (text : Bytes) (plain : ∀ c ∈ text, c < 128) : (latin text).all isAscii = true := by
  rw [List.all_eq_true]
  intro c member
  obtain ⟨byte, inside, rfl⟩ := List.mem_map.mp member
  rw [isAscii, latin_number, decide_eq_true_eq]
  exact UInt8.lt_iff_toNat_lt.mp (plain byte inside)

theorem ascii_bytes (text : Bytes) (plain : (latin text).all isAscii = true) : ∀ c ∈ text, c < 128 := by
  intro c member
  have small := List.all_eq_true.mp plain _ (List.mem_map_of_mem member)
  rw [isAscii, latin_number, decide_eq_true_eq] at small
  exact UInt8.lt_iff_toNat_lt.mpr small

theorem prefixed_letters (net own : Dotted) : ∀ c ∈ net.prefixed own, isDigit c = true ∨ c = 46 := by
  intro c member
  simp only [Dotted.prefixed, List.mem_append, List.mem_cons] at member
  rcases member with inA | dot | inB | dot | inC | dot | inD
  · exact Or.inl ((net.decimal _ (by simp)).2 c inA)
  · exact Or.inr dot
  · exact Or.inl ((net.decimal _ (by simp)).2 c inB)
  · exact Or.inr dot
  · exact Or.inl ((net.decimal _ (by simp)).2 c inC)
  · exact Or.inr dot
  · exact Or.inl ((own.decimal _ (by simp)).2 c inD)

theorem decimal_absent (text : Bytes) (letters : ∀ c ∈ text, isDigit c = true ∨ c = 46) (c : UInt8)
    (other : isDigit c = false) (dot : c ≠ 46) : c ∉ text := by
  intro member
  rcases letters c member with digit | same
  · rw [other] at digit
    cases digit
  · exact dot same

theorem decimal_small (text : Bytes) (letters : ∀ c ∈ text, isDigit c = true ∨ c = 46) :
    ∀ c ∈ text, 46 ≤ c.toNat ∧ c.toNat ≤ 57 := by
  intro c member
  rcases letters c member with digit | rfl
  · simp only [isDigit, Bool.and_eq_true, decide_eq_true_eq, UInt8.le_iff_toNat_le] at digit
    change 48 ≤ c.toNat ∧ c.toNat ≤ 57 at digit
    omega
  · decide

theorem decimal_carried (text : Bytes) (letters : ∀ c ∈ text, isDigit c = true ∨ c = 46) : Carried text := by
  have absent := decimal_absent text letters
  have marks : '<' ∉ latin text ∧ ']' ∉ latin text ∧ '&' ∉ latin text :=
    ⟨fun member => absent 60 (by decide) (by decide) ((latin_mem 60 text).mp member),
      fun member => absent 93 (by decide) (by decide) ((latin_mem 93 text).mp member),
      fun member => absent 38 (by decide) (by decide) ((latin_mem 38 text).mp member)⟩
  have numbers : (latin text).all (fun c => isXmlNumber c.toNat) = true := by
    rw [List.all_eq_true]
    intro c member
    obtain ⟨byte, inside, rfl⟩ := List.mem_map.mp member
    have range := decimal_small text letters byte inside
    rw [latin_number]
    simp only [isXmlNumber, Bool.or_eq_true, Bool.and_eq_true, decide_eq_true_eq, beq_iff_eq]
    omega
  have close : ¬ "]]>".toList <:+: latin text := fun within => marks.2.1 (within.subset (by decide))
  have defined : referencesDefined (latin text) = true := by
    rw [← List.append_nil (latin text), references_letters (latin text) [] marks.2.2]
    rfl
  constructor
  · rw [wellFormed, numbers, defined, decide_eq_false close]
    simp [marks.1]
  · intro c member
    have range := decimal_small text letters c member
    rw [UInt8.lt_iff_toNat_lt]
    change c.toNat < 128
    omega
  · exact sendable_of_absent text (absent 38 (by decide) (by decide)) (absent 35 (by decide) (by decide))
      (absent 43 (by decide) (by decide)) (absent 37 (by decide) (by decide)) (absent 0 (by decide) (by decide))

theorem carried_shown (text : Bytes) (carried : Carried text) : shown text = latin text :=
  (shown_same text carried.formed).mpr (sendable_absent text carried.sendable 38 rfl)

theorem latin_prefixed (net own : Dotted) :
    latin (net.prefixed own) = joined (latin net.a) (latin net.b) (latin net.c) (latin own.d) := by
  simp only [latin, Dotted.prefixed, List.map_append, List.map_cons, joined]
  rfl

theorem dotted_fields (address : Dotted) :
    fieldAt (latin address.text) 0 = latin address.a ∧ fieldAt (latin address.text) 1 = latin address.b ∧
      fieldAt (latin address.text) 2 = latin address.c ∧ fieldAt (latin address.text) 3 = latin address.d := by
  have plain : ∀ field ∈ [latin address.a, latin address.b, latin address.c, latin address.d], '.' ∉ field := by
    intro field member dot
    obtain ⟨own, inside, rfl⟩ := List.mem_map.mp
      (show field ∈ [address.a, address.b, address.c, address.d].map latin by simpa using member)
    exact absurd ((address.decimal own inside).2 46 ((latin_mem 46 own).mp dot)) (by decide)
  have split : (latin address.text).splitOn '.' = [latin address.a, latin address.b, latin address.c,
    latin address.d] := by
    have text : latin address.text = ['.'].intercalate [latin address.a, latin address.b, latin address.c,
      latin address.d] := by
      rw [Dotted.text, latin_prefixed]
      simp [joined, List.intercalate]
    rw [text]
    exact List.splitOn_intercalate '.' plain (by simp)
  simp only [fieldAt, split]
  exact ⟨rfl, rfl, rfl, rfl⟩

theorem dotted_moved (net own : Dotted) : moved (latin net.text) (latin own.text) = latin (net.prefixed own) := by
  obtain ⟨a, b, c, _⟩ := dotted_fields net
  rw [moved, a, b, c, (dotted_fields own).2.2.2, latin_prefixed]

theorem carried_check (text : Bytes) (check : (wellFormed (latin text) && text.all (fun c => decide (c < 128)) &&
    isSendable text) = true) : Carried text := by
  simp only [Bool.and_eq_true, List.all_eq_true, decide_eq_true_eq] at check
  exact ⟨check.1.1, check.1.2, check.2⟩

theorem flag_carried (flag : Bool) : Carried (flagBytes flag) := by
  apply carried_check
  cases flag <;> decide +kernel

theorem answer_texts_iff (holds : Bytes → Prop) (plain : ∀ text, Carried text → holds text) (running : Bool)
    (config : StoredConfig) :
    (∀ entry ∈ statusEntries running config.settings, ∀ text ∈ entryTexts entry, holds text) ↔
      holds config.settings.router ∧ ∀ text ∈ keptTexts config, holds text := by
  have start := plain _ (decimal_carried config.start.text (prefixed_letters config.start config.start))
  have last := plain _ (decimal_carried config.last.text (prefixed_letters config.last config.last))
  have status : holds (runningItem running).2 := by
    apply plain
    apply carried_check
    cases running <;> decide +kernel
  have flag : holds (staticFlag config.settings) := by
    apply plain
    apply carried_check
    unfold staticFlag
    split <;> decide +kernel
  rw [← config.start_text] at start
  rw [← config.last_text] at last
  have leases : (∀ entry ∈ config.leases.map fun lease => Entry.lease lease.1 lease.2, ∀ text ∈ entryTexts entry,
    holds text) ↔
      ∀ text ∈ config.leases.flatMap fun lease => [lease.1, lease.2], holds text := by
    simp only [List.forall_mem_map, List.mem_flatMap, entryTexts]
    constructor
    · rintro each text ⟨lease, member, inside⟩
      exact each lease member text inside
    · exact fun each lease member text inside => each text ⟨lease, member, inside⟩
  rw [statusEntries, List.forall_mem_append, ← StoredConfig.leases, leases, keptTexts, List.forall_mem_append]
  simp only [List.forall_mem_map, statusItems, reported, List.forall_mem_cons, entryTexts, List.mem_singleton,
    forall_eq, status, flag,
    start, last, true_and]
  tauto

theorem formed_iff (running : Bool) (config : StoredConfig) :
    Formed (statusEntries running config.settings) ↔
      wellFormed (latin config.settings.router) = true ∧ ∀ text ∈ keptTexts config, wellFormed (latin text) = true :=
  answer_texts_iff (fun text => wellFormed (latin text) = true) (fun _ carried => carried.formed) running config

theorem marked_iff (running : Bool) (config : StoredConfig) :
    (statusEntries running config.settings).any isMarked = true ↔
      ∃ text ∈ config.settings.router :: keptTexts config, (60 : UInt8) ∈ text := by
  have each := answer_texts_iff (fun text => (60 : UInt8) ∉ text)
    (fun text carried => formed_unmarked text carried.formed) running config
  rw [entries_marked, ← not_iff_not]
  push Not
  rw [each, List.forall_mem_cons]

theorem status_of_short (running : Bool) (config : StoredConfig) (short : Short config.settings) :
    dhcpStatus running config.file = some (statusEntries running config.settings) := by
  rw [StoredConfig.file, status_of_stored running config.settings config.stored,
    status_of_state running config.settings config.stored short]
  rfl

theorem formed_shows (running : Bool) (config : StoredConfig)
    (formed : Formed (statusEntries running config.settings)) :
    Shows shown running config ((statusEntries running config.settings).map nodeOf) := by
  have read := status_child running config.settings config.stored formed
  have text : ∀ item ∈ statusItems running config.settings,
      textOf ((statusEntries running config.settings).map nodeOf) item.1 = some (shown item.2) := by
    intro item member
    rw [textOf, read item member]
    rfl
  have split : ∀ item ∈ statusItems running config.settings,
      splitText ((statusEntries running config.settings).map nodeOf) item.1 = some (shown item.2) := by
    intro item member
    rw [splitText, read item member]
    rfl
  have status : shown (runningItem running).2 = latin (runningItem running).2 := by
    cases running <;> decide +kernel
  have static : shown (staticFlag config.settings) = latin (staticFlag config.settings) := by
    unfold staticFlag
    split <;> decide +kernel
  have start := carried_shown _ (decimal_carried config.start.text (prefixed_letters config.start config.start))
  have last := carried_shown _ (decimal_carried config.last.text (prefixed_letters config.last config.last))
  rw [← config.start_text] at start
  rw [← config.last_text] at last
  constructor
  · rw [← status]
    exact text (runningItem running) (by simp [statusItems])
  · rw [← static]
    exact text ("STATIC", staticFlag config.settings) (by simp [statusItems, reported])
  · exact text ("INTERFACE", config.settings.interface) (by simp [statusItems, reported])
  · rw [← start]
    exact split ("START", config.settings.start) (by simp [statusItems, reported])
  · rw [← last]
    exact split ("END", config.settings.last) (by simp [statusItems, reported])
  · rw [split ("ROUTER", config.settings.router) (by simp [statusItems, reported])]
    rfl
  · exact text ("TIME", config.settings.time) (by simp [statusItems, reported])
  · exact text ("DNS1", config.settings.dns1) (by simp [statusItems, reported])
  · exact text ("DNS2", config.settings.dns2) (by simp [statusItems, reported])
  · exact status_leases running config.settings config.stored formed

-- data, from a tree in which the texts are viewed
def viewedData (view : Bytes → Text) (running : Bool) (config : StoredConfig) (first second : Dotted) :
    List (Bytes × Text) :=
  requestData running (decide (config.settings.static = ascii "true"))
    ⟨view config.settings.interface, latin config.settings.start, latin config.settings.last, view config.settings.time,
      view config.settings.dns1, view config.settings.dns2, config.leases.map fun lease => (view lease.1, view lease.2)⟩
    (latin (if view config.settings.interface = "eth1".toList then second else first).text)

theorem save_dhcp_shows (view : Bytes → Text) (running : Bool) (config : StoredConfig) (nodes : List Node)
    (shows : Shows view running config nodes) (first second : Dotted) (more : List Dotted) :
    saveDHCP nodes ((first :: second :: more).map fun address => latin address.text) =
      some (viewedData view running config first second) := by
  obtain ⟨router, text⟩ := Option.isSome_iff_exists.mp shows.router
  have status : decide (latin (runningItem running).2 = "running".toList) = running := by
    cases running <;> decide +kernel
  have static : looselyTrue (latin (staticFlag config.settings)) = decide (config.settings.static = ascii "true") := by
    unfold staticFlag
    split
    · rename_i enabled
      rw [decide_eq_true enabled]
      decide +kernel
    · rename_i disabled
      rw [decide_eq_false disabled]
      decide +kernel
  simp only [saveDHCP, shows.status, shows.static, shows.interface, shows.start, shows.last, text, shows.time,
    shows.dns1, shows.dns2,
    shows.leases, Option.bind_eq_bind, Option.bind_some, status, static, viewedData]
  split <;> rfl

end Ftm50s.Dhcp.LanChange
