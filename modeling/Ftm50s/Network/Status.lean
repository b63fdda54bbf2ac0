import Ftm50s.Lib.Decimal
import Ftm50s.Lib.Filter
import Mathlib.Algebra.GroupWithZero.Nat
import Mathlib.Logic.Function.Basic

set_option autoImplicit false

namespace Ftm50s.Network

open Lib.Text Lib.Decimal Lib.Filter

-- The parts of the regular expression [0-9]+.[0-9]+.[0-9]+.[0-9]+, each with what
-- has to match behind it; the dots stand for any byte.
def matchDigits (next : Bytes → Bool) : Bytes → Bool
  | [] => false
  | c :: rest => isDigit c && (next rest || matchDigits next rest)

def matchAny (next : Bytes → Bool) : Bytes → Bool
  | [] => false
  | _ :: rest => next rest

def matchQuad : Bytes → Bool :=
  matchDigits (matchAny (matchDigits (matchAny (matchDigits (matchAny (matchDigits fun _ => true))))))

def matchTagged (tag : Bytes) : Bytes → Bool
  | [] => false
  | c :: rest => (tag.isPrefixOf (c :: rest) && matchQuad ((c :: rest).drop tag.length)) || matchTagged tag rest

-- split(field, a, ":") and a[2]
def secondPart (field : Bytes) : Bytes := (splitFields 58 field).getD 1 []

inductive Item where
  | macaddr
  | ipaddr
  | ptp
  | netmask
deriving DecidableEq, Repr

def items : List Item := [.macaddr, .ipaddr, .ptp, .netmask]

def itemHit : Item → List Bytes → Bool
  | .macaddr, array => occurs (ascii "HWaddr") (array.getD 3 [])
  | .ipaddr, array => matchTagged (ascii "addr:") (array.getD 1 [])
  | .ptp, array => matchTagged (ascii "P-t-P:") (array.getD 2 [])
  | .netmask, array => matchTagged (ascii "Mask:") (array.getD 3 [])

def itemValue : Item → List Bytes → Bytes
  | .macaddr, array => array.getD 4 []
  | .ipaddr, array => secondPart (array.getD 1 [])
  | .ptp, array => secondPart (array.getD 2 [])
  | .netmask, array => secondPart (array.getD 3 [])

-- The variables of status_network.awk; the number 0 is kept as it is printed.
structure Scanner where
  detect : Bool
  ifname : Bytes
  type : Bytes
  values : Item → Bytes
  item : Nat
  ethcount : Nat
  p2pcount : Nat
  printed : List Bytes

def scannerBegin : Scanner := ⟨false, [], [], fun _ => [], 0, 0, 0, []⟩

def isLink (array : List Bytes) : Bool :=
  occurs (ascii "Link") (array.getD 1 []) && occurs (ascii "encap") (array.getD 2 [])

def zeroes : Item → Bytes := fun _ => ascii "0"

def openBlock (scanner : Scanner) (array : List Bytes) : Scanner :=
  if isLink array then
    { scanner with
      detect := true, ifname := array.getD 0 [], type := secondPart (array.getD 2 []), values := zeroes, item := 2 }
  else scanner

def recordText (kind : String) (number : Nat) (ifname : Bytes) (values : Item → Bytes) (last : Item) : Bytes :=
  ascii kind ++ ascii " " ++ decimal number ++ ascii " " ++ ifname ++ ascii " " ++ values .ipaddr ++ ascii " " ++
    values .netmask ++ ascii " " ++ values last

def printBlock (scanner : Scanner) : Scanner :=
  if scanner.item = 5 then
    if scanner.type = ascii "Ethernet" then
      { scanner with
        ethcount := scanner.ethcount + 1
        printed := scanner.printed ++ [recordText "eth" (scanner.ethcount + 1) scanner.ifname scanner.values .macaddr] }
    else if scanner.type = ascii "Point-to-Point" then
      { scanner with
        p2pcount := scanner.p2pcount + 1
        printed := scanner.printed ++ [recordText "p2p" (scanner.p2pcount + 1) scanner.ifname scanner.values .ptp] }
    else scanner
  else scanner

def closeBlock (scanner : Scanner) (array : List Bytes) : Scanner :=
  if array = [] then
    { printBlock scanner with detect := false, ifname := ascii "0", type := ascii "0", values := zeroes, item := 0 }
  else scanner

-- The peer's address also prints a variable that is never set.
def readItem (array : List Bytes) (scanner : Scanner) (item : Item) : Scanner :=
  if itemHit item array then
    { scanner with
      values := Function.update scanner.values item (itemValue item array)
      item := scanner.item + 1
      printed := scanner.printed ++ if item = .ptp then [[]] else [] }
  else scanner

def networkRecord (scanner : Scanner) (line : Bytes) : Scanner :=
  let array := words line
  let opened := openBlock scanner array
  if opened.detect then items.foldl (readItem array) (closeBlock opened array) else opened

def statusNetworkLines (input : List Bytes) : List Bytes := (input.foldl networkRecord scannerBegin).printed

def statusNetworkAwk (input : Bytes) : Bytes := unlines (statusNetworkLines (lines input))

-- What ifconfig prints of one interface: a line with the type behind encap:, the
-- lines that follow, and an empty one.
structure Block where
  header : Bytes
  body : List Bytes
  blank : Bytes
deriving DecidableEq, Repr

def blockLines (block : Block) : List Bytes := block.header :: block.body

def encap (block : Block) : Bytes := ((words block.header).getD 2 []).drop 6

def hits (block : Block) (item : Item) : List (List Bytes) := ((blockLines block).map words).filter (itemHit item)

def isBlock (block : Block) : Bool :=
  (words block.header).getD 1 [] == ascii "Link" && (ascii "encap:").isPrefixOf ((words block.header).getD 2 []) &&
    !(encap block).contains 58 &&
    block.body.all (fun line => !(words line).isEmpty && !isLink (words line)) && (words block.blank).isEmpty &&
    items.all (fun item => decide ((hits block item).length ≤ 1)) &&
    (block.blank :: blockLines block).all (fun line => !line.contains 10)

-- The value of an item in the block that has it
def found (block : Block) (item : Item) : Option Bytes := (hits block item).head?.map (itemValue item)

def blockValues (block : Block) (item : Item) : Bytes := (found block item).getD (ascii "0")

def hasThree (block : Block) : Bool := decide ((items.filter fun item => (found block item).isSome).length = 3)

-- The records of a list of blocks behind so many of either kind
def recordsFrom (eth p2p : Nat) : List Block → List Bytes
  | [] => []
  | block :: rest =>
      if hasThree block then
        if encap block = ascii "Ethernet" then
          recordText "eth" (eth + 1) ((words block.header).getD 0 []) (blockValues block) .macaddr ::
            recordsFrom (eth + 1) p2p rest
        else if encap block = ascii "Point-to-Point" then
          recordText "p2p" (p2p + 1) ((words block.header).getD 0 []) (blockValues block) .ptp ::
            recordsFrom eth (p2p + 1) rest
        else recordsFrom eth p2p rest
      else recordsFrom eth p2p rest

def ifconfigText (blocks : List Block) : Bytes :=
  unlines (blocks.flatMap fun block => blockLines block ++ [block.blank])

-- What one line of a block adds
def absorb (scanner : Scanner) (array : List Bytes) : Scanner :=
  { scanner with
    values := fun item => if itemHit item array then itemValue item array else scanner.values item
    item := scanner.item + (items.filter fun item => itemHit item array).length
    printed := scanner.printed ++ if itemHit .ptp array then [[]] else [] }

theorem read_item_eq (array : List Bytes) (scanner : Scanner) (item : Item) : readItem array scanner item =
    { scanner with
      values := fun other => if other = item ∧ itemHit item array = true then itemValue item array else scanner.values other
      item := scanner.item + if itemHit item array then 1 else 0
      printed := scanner.printed ++ if item = .ptp ∧ itemHit item array = true then [[]] else [] } := by
  rw [readItem]
  by_cases hit : itemHit item array = true
  · simp only [hit, if_true, and_true]
    congr 1
    exact funext fun other => Function.update_apply ..
  · simp only [hit, if_false, and_false, Bool.false_eq_true, Nat.add_zero, List.append_nil]

theorem hit_count (array : List Bytes) :
    (items.filter fun item => itemHit item array).length =
      (if itemHit .macaddr array then 1 else 0) + (if itemHit .ipaddr array then 1 else 0) +
        (if itemHit .ptp array then 1 else 0) + if itemHit .netmask array then 1 else 0 := by
  simp only [items, List.filter_cons, List.filter_nil]
  cases itemHit .macaddr array <;> cases itemHit .ipaddr array <;> cases itemHit .ptp array <;>
    cases itemHit .netmask array <;> rfl

theorem read_items (scanner : Scanner) (array : List Bytes) : items.foldl (readItem array) scanner = absorb scanner array := by
  rw [absorb, hit_count]
  simp only [items, List.foldl_cons, List.foldl_nil, read_item_eq]
  congr 1
  · funext item
    cases item <;> simp
  · omega
  · simp

def absorbAll (scanner : Scanner) (arrays : List (List Bytes)) : Scanner := arrays.foldl absorb scanner

def nonblank (line : Bytes) : Bool := !line.isEmpty

def total (arrays : List (List Bytes)) (of : List Item) : Nat :=
  (of.map fun item => (arrays.filter (itemHit item)).length).sum

theorem total_cons (array : List Bytes) (rest : List (List Bytes)) (of : List Item) :
    total (array :: rest) of = (of.filter fun item => itemHit item array).length + total rest of := by
  induction of with
  | nil => rfl
  | cons item more ih =>
      simp only [total, List.map_cons, List.sum_cons] at ih ⊢
      rw [ih]
      cases hit : itemHit item array
      · simp [hit]
        omega
      · simp [hit]
        omega

theorem absorb_all_frame (arrays : List (List Bytes)) (scanner : Scanner) :
    (absorbAll scanner arrays).detect = scanner.detect ∧ (absorbAll scanner arrays).ifname = scanner.ifname ∧
      (absorbAll scanner arrays).type = scanner.type ∧ (absorbAll scanner arrays).ethcount = scanner.ethcount ∧
      (absorbAll scanner arrays).p2pcount = scanner.p2pcount ∧
      (absorbAll scanner arrays).printed.filter nonblank = scanner.printed.filter nonblank := by
  induction arrays generalizing scanner with
  | nil => exact ⟨rfl, rfl, rfl, rfl, rfl, rfl⟩
  | cons array rest ih =>
      obtain ⟨detect, ifname, type, eth, p2p, printed⟩ := ih (absorb scanner array)
      refine ⟨detect, ifname, type, eth, p2p, ?_⟩
      refine Eq.trans printed ?_
      simp only [absorb, List.filter_append]
      split <;> simp [nonblank]

theorem absorb_all_item (arrays : List (List Bytes)) (scanner : Scanner) :
    (absorbAll scanner arrays).item = scanner.item + total arrays items := by
  induction arrays generalizing scanner with
  | nil => rfl
  | cons array rest ih =>
      refine Eq.trans (ih (absorb scanner array)) ?_
      rw [total_cons]
      simp only [absorb]
      omega

theorem absorb_all_values (arrays : List (List Bytes)) (scanner : Scanner) (item : Item) :
    (absorbAll scanner arrays).values item =
      ((arrays.filter (itemHit item)).getLast?.map (itemValue item)).getD (scanner.values item) := by
  induction arrays generalizing scanner with
  | nil => rfl
  | cons array rest ih =>
      refine Eq.trans (ih (absorb scanner array)) ?_
      cases hit : itemHit item array
      · rw [List.filter_cons_of_neg (by rw [hit]; exact Bool.false_ne_true)]
        simp [absorb, hit]
      · rw [List.filter_cons_of_pos hit, List.getLast?_cons]
        cases (rest.filter (itemHit item)).getLast? <;> simp [absorb, hit]

structure WellFormed (block : Block) : Prop where
  link : (words block.header).getD 1 [] = ascii "Link"
  encapped : (words block.header).getD 2 [] = ascii "encap:" ++ encap block
  single : (58 : UInt8) ∉ encap block
  body : ∀ line ∈ block.body, words line ≠ [] ∧ isLink (words line) = false
  blank : words block.blank = []
  once : ∀ item, (hits block item).length ≤ 1
  plain : ∀ line ∈ blockLines block ++ [block.blank], (10 : UInt8) ∉ line

theorem items_all (item : Item) : item ∈ items := by
  cases item <;> decide

theorem block_spec (block : Block) (valid : isBlock block = true) : WellFormed block := by
  simp only [isBlock, Bool.and_eq_true, beq_iff_eq, List.all_eq_true] at valid
  obtain ⟨⟨⟨⟨⟨⟨link, start⟩, single⟩, body⟩, blank⟩, once⟩, plain⟩ := valid
  refine ⟨link, ?_, by simpa using single, ?_, by simpa using blank, ?_, ?_⟩
  · obtain ⟨rest, whole⟩ := List.isPrefixOf_iff_prefix.mp start
    rw [encap, ← whole]
    rfl
  · intro line member
    simpa using body line member
  · intro item
    simpa using once item (items_all item)
  · intro line member
    have inside : line ∈ block.blank :: blockLines block := by
      rw [List.mem_append, List.mem_singleton] at member
      rw [List.mem_cons]
      exact member.symm
    simpa using plain line inside

theorem second_part (tag value : Bytes) (tagPlain : (58 : UInt8) ∉ tag) (valuePlain : (58 : UInt8) ∉ value) :
    secondPart (tag ++ 58 :: value) = value := by
  have filled : tag ++ 58 :: value ≠ [] := by simp
  have before : ∀ c ∈ tag, (c == 58) = false := by
    intro c member
    rw [beq_eq_false_iff_ne]
    rintro rfl
    exact tagPlain member
  have split : (tag ++ 58 :: value).splitOn 58 = [tag, value] := by
    rw [List.splitOn_eq_splitOnP, List.splitOnP_append_cons_of_forall_mem before 58 rfl, ← List.splitOn_eq_splitOnP,
      List.splitOn_eq_singleton valuePlain]
  rw [secondPart, splitFields, if_neg filled, split, List.getD_cons_succ, List.getD_cons_zero]

theorem encap_type (block : Block) (formed : WellFormed block) :
    secondPart ((words block.header).getD 2 []) = encap block := by
  rw [formed.encapped]
  exact second_part (ascii "encap") (encap block) (by decide) formed.single

theorem header_link (block : Block) (formed : WellFormed block) : isLink (words block.header) = true := by
  have link : occurs (ascii "Link") (ascii "Link") = true := by decide
  have start : occurs (ascii "encap") (ascii "encap:") = true := by decide
  rw [isLink, formed.link, formed.encapped, link, occurs_append_right _ _ _ start]
  rfl

def opened (scanner : Scanner) (block : Block) : Scanner :=
  { scanner with
    detect := true, ifname := (words block.header).getD 0 [], type := encap block, values := zeroes, item := 2 }

theorem header_read (scanner : Scanner) (block : Block) (formed : WellFormed block) :
    networkRecord scanner block.header = absorb (opened scanner block) (words block.header) := by
  have filled : words block.header ≠ [] := by
    intro empty
    have link := formed.link
    rw [empty] at link
    cases link
  have start : openBlock scanner (words block.header) = opened scanner block := by
    rw [openBlock, if_pos (header_link block formed), encap_type block formed]
    rfl
  simp only [networkRecord, start, closeBlock, if_neg filled]
  rw [read_items]
  rfl

theorem body_read (scanner : Scanner) (line : Bytes) (detect : scanner.detect = true) (filled : words line ≠ [])
    (inside : isLink (words line) = false) : networkRecord scanner line = absorb scanner (words line) := by
  have same : openBlock scanner (words line) = scanner := by
    rw [openBlock, inside]
    rfl
  simp only [networkRecord, same, detect, if_true, closeBlock, if_neg filled, read_items]

theorem body_lines_read (body : List Bytes) (scanner : Scanner) (detect : scanner.detect = true)
    (inside : ∀ line ∈ body, words line ≠ [] ∧ isLink (words line) = false) :
    body.foldl networkRecord scanner = absorbAll scanner (body.map words) := by
  induction body generalizing scanner with
  | nil => rfl
  | cons line rest ih =>
      obtain ⟨filled, follows⟩ := inside line (by simp)
      rw [List.foldl_cons, body_read scanner line detect filled follows, ih (absorb scanner (words line)) detect
        fun other member => inside other (by simp [member])]
      rfl

theorem block_read_lines (scanner : Scanner) (block : Block) (formed : WellFormed block) :
    (blockLines block).foldl networkRecord scanner = absorbAll (opened scanner block)
      ((blockLines block).map words) := by
  rw [blockLines, List.foldl_cons, header_read scanner block formed, body_lines_read block.body _ rfl formed.body]
  rfl

theorem blank_read (scanner : Scanner) (line : Bytes) (detect : scanner.detect = true) (blank : words line = []) :
    networkRecord scanner line =
      { printBlock scanner with detect := false, ifname := ascii "0", type := ascii "0", values := zeroes, item :=
      0 } := by
  have same : openBlock scanner [] = scanner := rfl
  simp only [networkRecord, blank, same, detect, if_true, closeBlock]
  rw [read_items]
  have quiet : ∀ item, itemHit item [] = false := by
    intro item
    cases item <;> decide
  simp [absorb, quiet]

theorem block_counted (block : Block) (formed : WellFormed block) :
    total ((blockLines block).map words) items = (items.filter fun item => (found block item).isSome).length := by
  have general : ∀ of : List Item, total ((blockLines block).map words) of = (of.filter fun item =>
    (found block item).isSome).length := by
    intro of
    induction of with
    | nil => rfl
    | cons item more ih =>
        have count : (((blockLines block).map words).filter (itemHit item)).length =
          if (found block item).isSome then 1 else 0 := by
          have once := formed.once item
          rw [found, Option.isSome_map]
          change (hits block item).length = _
          cases all : hits block item with
          | nil => rfl
          | cons array rest =>
              rw [all, List.length_cons] at once
              rw [List.head?_cons, Option.isSome_some, if_pos rfl, List.length_cons]
              omega
        rw [total, List.map_cons, List.sum_cons, count]
        change _ + total ((blockLines block).map words) more = _
        rw [ih]
        cases has : (found block item).isSome
        · simp [has]
        · simp [has]
          omega
  exact general items

theorem block_valued (scanner : Scanner) (block : Block) (formed : WellFormed block) (item : Item) :
    (absorbAll (opened scanner block) ((blockLines block).map words)).values item = blockValues block item := by
  have once := formed.once item
  rw [absorb_all_values, blockValues, found]
  change ((hits block item).getLast?.map (itemValue item)).getD (ascii "0") = _
  cases all : hits block item with
  | nil => rfl
  | cons array rest =>
      rw [all, List.length_cons] at once
      obtain rfl : rest = [] := List.eq_nil_of_length_eq_zero (by omega)
      rfl

def blockRecord (eth p2p : Nat) (block : Block) : List Bytes := recordsFrom eth p2p [block]

def isEthernet (block : Block) : Bool := hasThree block && decide (encap block = ascii "Ethernet")

def isPeer (block : Block) : Bool := hasThree block && decide (encap block = ascii "Point-to-Point")

theorem records_cons (eth p2p : Nat) (block : Block) (rest : List Block) :
    recordsFrom eth p2p (block :: rest) = blockRecord eth p2p block ++
      recordsFrom (if isEthernet block then eth + 1 else eth) (if isPeer block then p2p + 1 else p2p) rest := by
  have different : ascii "Ethernet" ≠ ascii "Point-to-Point" := by decide
  simp only [blockRecord, recordsFrom, isEthernet, isPeer]
  by_cases three : hasThree block = true
  · by_cases ethernet : encap block = ascii "Ethernet"
    · simp [three, ethernet, different]
    · by_cases peer : encap block = ascii "Point-to-Point"
      · simp [three, peer, Ne.symm different]
      · simp [three, ethernet, peer]
  · simp [three]

theorem record_nonblank (kind : String) (number : Nat) (ifname : Bytes) (values : Item → Bytes) (last : Item) :
    nonblank (recordText kind number ifname values last) = true := by
  have space : ascii " " = [32] := rfl
  simp [nonblank, recordText, space]

theorem print_block_record (scanner : Scanner) (block : Block) (three : scanner.item = 5 ↔ hasThree block = true)
    (ifname : scanner.ifname = (words block.header).getD 0 []) (type : scanner.type = encap block)
    (values : scanner.values = blockValues block) :
    (printBlock scanner).printed.filter nonblank =
        scanner.printed.filter nonblank ++ blockRecord scanner.ethcount scanner.p2pcount block ∧
      (printBlock scanner).ethcount = (if isEthernet block then scanner.ethcount + 1 else scanner.ethcount) ∧
      (printBlock scanner).p2pcount = if isPeer block then scanner.p2pcount + 1 else scanner.p2pcount := by
  have different : ascii "Ethernet" ≠ ascii "Point-to-Point" := by decide
  simp only [printBlock, three, ifname, type, values, blockRecord, recordsFrom, isEthernet, isPeer]
  by_cases full : hasThree block = true
  · by_cases ethernet : encap block = ascii "Ethernet"
    · simp [full, ethernet, different, record_nonblank]
    · by_cases peer : encap block = ascii "Point-to-Point"
      · simp [full, peer, Ne.symm different, record_nonblank]
      · simp [full, ethernet, peer]
  · simp [full]

theorem block_step (scanner : Scanner) (block : Block) (formed : WellFormed block) :
    let after := (blockLines block ++ [block.blank]).foldl networkRecord scanner
    after.printed.filter nonblank = scanner.printed.filter nonblank ++
    blockRecord scanner.ethcount scanner.p2pcount block ∧
      after.ethcount = (if isEthernet block then scanner.ethcount + 1 else scanner.ethcount) ∧
      after.p2pcount = if isPeer block then scanner.p2pcount + 1 else scanner.p2pcount := by
  intro after
  obtain ⟨detect, ifname, type, eth, p2p, printed⟩ :=
    absorb_all_frame ((blockLines block).map words) (opened scanner block)
  have item := absorb_all_item ((blockLines block).map words) (opened scanner block)
  rw [block_counted block formed] at item
  have values : (absorbAll (opened scanner block) ((blockLines block).map words)).values = blockValues block :=
    funext (block_valued scanner block formed)
  have ended : after = { printBlock (absorbAll (opened scanner block) ((blockLines block).map words)) with
      detect := false, ifname := ascii "0", type := ascii "0", values := zeroes, item := 0 } := by
    change (blockLines block ++ [block.blank]).foldl networkRecord scanner = _
    rw [List.foldl_append, block_read_lines scanner block formed, List.foldl_cons, List.foldl_nil]
    exact blank_read _ _ detect formed.blank
  have three : (absorbAll (opened scanner block) ((blockLines block).map words)).item = 5 ↔ hasThree block = true := by
    rw [item, hasThree, decide_eq_true_eq]
    change 2 + _ = 5 ↔ _
    omega
  have record := print_block_record _ block three ifname type values
  rw [printed, eth, p2p] at record
  rw [ended]
  exact record

theorem blocks_read_records (blocks : List Block) (scanner : Scanner) (valid : blocks.all isBlock = true) :
    ((blocks.flatMap fun block => blockLines block ++
    [block.blank]).foldl networkRecord scanner).printed.filter nonblank =
      scanner.printed.filter nonblank ++ recordsFrom scanner.ethcount scanner.p2pcount blocks := by
  induction blocks generalizing scanner with
  | nil => exact (List.append_nil _).symm
  | cons block rest ih =>
      rw [List.all_cons, Bool.and_eq_true] at valid
      obtain ⟨printed, eth, p2p⟩ := block_step scanner block (block_spec block valid.1)
      rw [List.flatMap_cons, List.foldl_append, ih _ valid.2, printed, eth, p2p, records_cons, List.append_assoc]

-- Every line that is not blank is a record, and each comes from its own block.
theorem interface_records (blocks : List Block) (valid : blocks.all isBlock = true) :
    ∃ printed, statusNetworkAwk (ifconfigText blocks) = unlines printed ∧
      printed.filter nonblank = recordsFrom 0 0 blocks := by
  have plain : ∀ line ∈ blocks.flatMap fun block => blockLines block ++ [block.blank], (10 : UInt8) ∉ line := by
    intro line member
    obtain ⟨block, inside, within⟩ := List.mem_flatMap.mp member
    exact (block_spec block (List.all_eq_true.mp valid block inside)).plain line within
  refine ⟨statusNetworkLines (blocks.flatMap fun block => blockLines block ++ [block.blank]), ?_, ?_⟩
  · rw [statusNetworkAwk, ifconfigText, lines_unlines _ plain]
  · rw [statusNetworkLines, blocks_read_records blocks scannerBegin valid]
    rfl

def twoBlocks : List Block :=
  [⟨ascii "lo Link encap:Local", [ascii "inet addr:127.0.0.1"], []⟩,
   ⟨ascii "eth0 Link encap:Ethernet HWaddr 0A", [ascii "inet addr:1.0.0.2 B Mask:9.0.0.0"], []⟩]

theorem two_blocks_records : twoBlocks.all isBlock = true ∧
    ∃ printed, statusNetworkAwk (ifconfigText twoBlocks) = unlines printed ∧
      printed.filter nonblank = [ascii "eth 1 eth0 1.0.0.2 9.0.0.0 0A"] := by
  have valid : twoBlocks.all isBlock = true := by decide
  obtain ⟨printed, output, records⟩ := interface_records twoBlocks valid
  refine ⟨valid, printed, output, ?_⟩
  rw [records]
  decide

end Ftm50s.Network
