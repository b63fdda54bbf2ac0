import Ftm50s.Firewall.Status

set_option autoImplicit false

namespace Ftm50s.Firewall

open Lib.Text Lib.Decimal Lib.Filter

def recordField (n : Nat) (record : List Bytes) : Bytes := record.getD (n - 1) []

def blanks (count : Nat) : Bytes := List.replicate count 32

-- The format "%-*s " behind a flag
def optionText (flag : String) (width : Nat) (value : Bytes) : Bytes :=
  ascii flag ++ 32 :: (padTo width 32 value ++ [32])

-- The dots of /^0.0.0.0$/ stand for any byte.
def isAnyAddress : Bytes → Bool
  | [48, _, 48, _, 48, _, 48] => true
  | _ => false

def directionText (direction ifname : Bytes) : Bytes :=
  if direction = ascii "IN" then optionText "-i" 6 ifname
  else if direction = ascii "OUT" then optionText "-o" 6 ifname
  else blanks 10

def addressText (flag : String) (address : Bytes) : Bytes :=
  if isAnyAddress address then blanks 20 else optionText flag 16 address

def protocolText (protocol : Bytes) : Bytes :=
  if protocol = ascii "tcp" ∨ protocol = ascii "udp" then optionText "-p" 8 protocol
  else if protocol = ascii "icmp" then optionText "-p" 8 protocol
  else blanks 11

-- The format "-m %-8s --sport %16s     "
def matchText (flag : String) (protocol port : Bytes) : Bytes :=
  optionText "-m" 8 protocol ++ ascii flag ++ 32 :: (blanks (16 - port.length) ++ port ++ blanks 5)

def sportText (chain protocol sport : Bytes) : Bytes :=
  if sport = ascii "0" then blanks 42
  else if sport = ascii "echo-reply" then ascii "--icmp-type echo-reply" ++ blanks 19
  else if isMatch "OUTPUT" chain then matchText "--sport" protocol sport
  else blanks 42

def dportText (chain protocol dport : Bytes) : Bytes :=
  if dport = ascii "0" then blanks 42
  else if dport = ascii "echo-request" then ascii "--icmp-type echo-request" ++ blanks 17
  else if chain = ascii "INPUT" then matchText "--dport" protocol dport
  else blanks 42

def iptablesRule (record : List Bytes) : Bytes :=
  optionText "-A" 8 (recordField 2 record) ++ directionText (recordField 3 record) (recordField 4 record) ++
    addressText "-s" (recordField 5 record) ++ addressText "-d" (recordField 6 record) ++
    protocolText (recordField 7 record) ++
    sportText (recordField 2 record) (recordField 7 record) (recordField 8 record) ++
    dportText (recordField 2 record) (recordField 7 record) (recordField 9 record) ++
    ascii "-j " ++ padTo 8 32 (recordField 10 record)

def iptablesLine (record : List Bytes) : Option Bytes :=
  if recordField 1 record = ascii "TABLE" then some (ascii "*" ++ recordField 2 record)
  else if recordField 1 record = ascii "CHAIN" then some (ascii ":" ++ recordField 2 record ++ ascii " " ++
  recordField 3 record)
  else if recordField 1 record = ascii "RULE" then some (iptablesRule record)
  else none

def ftmrule2iptables (ftmrule : Bytes) : Bytes :=
  unlines (((lines ftmrule).map words).filterMap iptablesLine ++ [ascii "COMMIT"])

def convertStart : Scan := ⟨none, none, none, some (ascii "0.0.0.0"), some (ascii "0.0.0.0"), none, some (ascii "0"),
    some (ascii "0"), none⟩

-- The addresses are read from an array that is never filled (arrary), and the
-- second tests inside -m and --icmp-type look at array[i] and never hold.
def convertOption (scan : Scan) (word : Bytes) (rest : List Bytes) : Scan × Nat :=
  if word = ascii "-A" then ({ scan with chain := rest[0]? }, 1)
  else if word = ascii "-i" then ({ scan with direction := some (ascii "IN"), ifname := rest[0]? }, 1)
  else if word = ascii "-o" then ({ scan with direction := some (ascii "OUT"), ifname := rest[0]? }, 1)
  else if word = ascii "-s" then ({ scan with sip := none }, 1)
  else if word = ascii "-d" then ({ scan with dip := none }, 1)
  else if word = ascii "-p" then ({ scan with protocol := rest[0]? }, 1)
  else if word = ascii "-m" then
    if rest[1]? = some (ascii "--dport") then ({ scan with dport := rest[2]? }, 3)
    else if word = ascii "--sport" then ({ scan with sport := rest[2]? }, 3)
    else (scan, 3)
  else if word = ascii "--sport" then ({ scan with sport := rest[0]? }, 1)
  else if word = ascii "--dport" then ({ scan with dport := rest[0]? }, 1)
  else if word = ascii "--icmp-type" then
    if scan.direction.any (isMatch "IN") then ({ scan with dport := rest[0]? }, 1)
    else if isMatch "OUT" word then ({ scan with sport := rest[0]? }, 1)
    else (scan, 1)
  else if word = ascii "-j" then ({ scan with policy := rest[0]? }, 1)
  else ({ scan with chain := none }, 0)

-- `second` is $2 of the record, whichever word of it is looked at.
def convertWord (second : Bytes) (state : AwkState) (scan : Scan) (word : Bytes) (rest : List Bytes) :
    AwkState × Scan × Nat :=
  if word = ascii ":INPUT" then ({ state with inputPolicy := second }, scan, 0)
  else if word = ascii ":OUTPUT" then ({ state with outputPolicy := second }, scan, 0)
  else if word = ascii ":FORWARD" then ({ state with forwardPolicy := second }, scan, 0)
  else (state, convertOption scan word rest)

def convertWords (second : Bytes) (state : AwkState) (scan : Scan) : Nat → List Bytes → AwkState × Scan
  | _, [] => (state, scan)
  | skip + 1, _ :: rest => convertWords second state scan skip rest
  | 0, word :: rest =>
      let (next, changed, skip) := convertWord second state scan word rest
      convertWords second next changed skip rest

def convertRecord (state : AwkState) (line : Bytes) : AwkState :=
  let array := words line
  let (next, scan) := convertWords (array.getD 1 []) state convertStart 0 array
  { next with filters := next.filters ++ (filterOf scan).toList }

def convertEnd (state : AwkState) : List Bytes :=
  [ascii "TABLE filter", ascii "CHAIN INPUT " ++ state.inputPolicy, ascii "CHAIN FORWARD " ++ state.forwardPolicy,
    ascii "CHAIN OUTPUT " ++ state.outputPolicy] ++ state.filters.map fun text => ascii "RULE  " ++ text

def iptables2ftmrule (iptables : Bytes) : Bytes := unlines (convertEnd ((lines iptables).foldl convertRecord awkBegin))

structure FtmRule where
  chain : Bytes
  direction : Bytes
  ifname : Bytes
  sip : Bytes
  dip : Bytes
  protocol : Bytes
  sport : Bytes
  dport : Bytes
  policy : Bytes
deriving DecidableEq, Repr

structure FtmFile where
  inputPolicy : Bytes
  forwardPolicy : Bytes
  outputPolicy : Bytes
  rules : List FtmRule
deriving DecidableEq, Repr

def FtmRule.record (rule : FtmRule) : List Bytes :=
  [ascii "RULE", rule.chain, rule.direction, rule.ifname, rule.sip, rule.dip, rule.protocol, rule.sport, rule.dport,
    rule.policy]

def chainRecords (input forward output : Bytes) : List (List Bytes) :=
  [[ascii "TABLE", ascii "filter"], [ascii "CHAIN", ascii "INPUT", input], [ascii "CHAIN", ascii "FORWARD", forward],
    [ascii "CHAIN", ascii "OUTPUT", output]]

def FtmFile.records (file : FtmFile) : List (List Bytes) :=
  chainRecords file.inputPolicy file.forwardPolicy file.outputPolicy ++ file.rules.map FtmRule.record

-- The rules of the format of ftmrule.default: a port only where the chain has
-- one, and every protocol on FORWARD.
structure InFormat (rule : FtmRule) : Prop where
  chain : rule.chain = ascii "INPUT" ∨ rule.chain = ascii "OUTPUT" ∨ rule.chain = ascii "FORWARD"
  direction : rule.direction = ascii "IN" ∨ rule.direction = ascii "OUT"
  protocol : if rule.chain = ascii "FORWARD" then rule.protocol = ascii "all"
    else rule.protocol = ascii "tcp" ∨ rule.protocol = ascii "udp" ∨ rule.protocol = ascii "icmp"
  sport : rule.chain = ascii "OUTPUT" ∨ rule.sport = ascii "0"
  dport : rule.chain = ascii "INPUT" ∨ rule.dport = ascii "0"

-- A text of the file, however its columns are spaced
def Spells (text : Bytes) (file : FtmFile) : Prop := (lines text).map words = file.records

theorem option_words (flag : String) (width : Nat) (value rest : Bytes) (isFlag : isWord (ascii flag) = true)
    (word : isWord value = true) :
    words (optionText flag width value ++ rest) = [ascii flag, value] ++ words rest := by
  rw [optionText, List.append_assoc, List.cons_append, words_word_space _ _ 32 isFlag (by decide), List.append_assoc,
    List.singleton_append, words_column width value rest 32 word (by decide)]
  rfl

theorem blank_words (count : Nat) (rest : Bytes) : words (blanks count ++ rest) = words rest := words_blanks count rest

def directionWords (direction ifname : Bytes) : List Bytes :=
  [if direction = ascii "IN" then ascii "-i" else ascii "-o", ifname]

def addressWords (flag : String) (address : Bytes) : List Bytes :=
  if isAnyAddress address then [] else [ascii flag, address]

def protocolWords (protocol : Bytes) : List Bytes := if protocol = ascii "all" then [] else [ascii "-p", protocol]

def matchWords (flag : String) (protocol port : Bytes) : List Bytes := [ascii "-m", protocol, ascii flag, port]

def sportWords (protocol sport : Bytes) : List Bytes :=
  if sport = ascii "0" then []
  else if sport = ascii "echo-reply" then [ascii "--icmp-type", ascii "echo-reply"]
  else matchWords "--sport" protocol sport

def dportWords (protocol dport : Bytes) : List Bytes :=
  if dport = ascii "0" then []
  else if dport = ascii "echo-request" then [ascii "--icmp-type", ascii "echo-request"]
  else matchWords "--dport" protocol dport

theorem direction_words (direction ifname rest : Bytes) (known : direction = ascii "IN" ∨ direction = ascii "OUT")
    (word : isWord ifname = true) :
    words (directionText direction ifname ++ rest) = directionWords direction ifname ++ words rest := by
  cases known with
  | inl inward =>
      rw [directionText, directionWords, if_pos inward, if_pos inward]
      exact option_words "-i" 6 ifname rest (by decide) word
  | inr outward =>
      have other : ¬direction = ascii "IN" := by rw [outward]; decide
      rw [directionText, directionWords, if_neg other, if_neg other, if_pos outward]
      exact option_words "-o" 6 ifname rest (by decide) word

theorem address_words (flag : String) (address rest : Bytes) (isFlag : isWord (ascii flag) = true)
    (word : isWord address = true) :
    words (addressText flag address ++ rest) = addressWords flag address ++ words rest := by
  by_cases any : isAnyAddress address = true
  · rw [addressText, addressWords, if_pos any, if_pos any]
    exact blank_words 20 rest
  · rw [addressText, addressWords, if_neg any, if_neg any]
    exact option_words flag 16 address rest isFlag word

theorem protocol_words (protocol rest : Bytes)
    (known : protocol = ascii "all" ∨ protocol = ascii "tcp" ∨ protocol = ascii "udp" ∨ protocol = ascii "icmp") :
    words (protocolText protocol ++ rest) = protocolWords protocol ++ words rest := by
  obtain rfl | rfl | rfl | rfl := known
  · exact blank_words 11 rest
  · exact option_words "-p" 8 _ rest (by decide) (by decide)
  · exact option_words "-p" 8 _ rest (by decide) (by decide)
  · exact option_words "-p" 8 _ rest (by decide) (by decide)

theorem match_words (flag : String) (protocol port rest : Bytes) (isFlag : isWord (ascii flag) = true)
    (protocolWord : isWord protocol = true) (portWord : isWord port = true) :
    words (matchText flag protocol port ++ rest) = matchWords flag protocol port ++ words rest := by
  have tail : words (ascii flag ++ 32 :: (blanks (16 - port.length) ++ (port ++ (blanks 5 ++ rest)))) =
    [ascii flag, port] ++ words rest := by
    rw [words_word_space _ _ 32 isFlag (by decide), blank_words]
    have closed : blanks 5 ++ rest = 32 :: (blanks 4 ++ rest) := rfl
    rw [closed, words_word_space port _ 32 portWord (by decide), blank_words]
    rfl
  rw [matchText, List.append_assoc, List.append_assoc, option_words "-m" 8 protocol _ (by decide) protocolWord]
  simp only [List.cons_append, List.append_assoc, tail]
  rfl

theorem icmp_words (kind : String) (count : Nat) (rest : Bytes) (word : isWord (ascii kind) = true) :
    words (ascii "--icmp-type" ++ 32 :: (ascii kind ++ 32 :: (blanks count ++ rest))) =
    [ascii "--icmp-type", ascii kind] ++ words rest := by
  rw [words_word_space _ _ 32 (by decide) (by decide), words_word_space _ _ 32 word (by decide), blank_words]
  rfl

theorem sport_words (rule : FtmRule) (rest : Bytes) (valid : InFormat rule) (protocolWord : isWord rule.protocol = true)
    (portWord : isWord rule.sport = true) :
    words (sportText rule.chain rule.protocol rule.sport ++ rest) = sportWords rule.protocol rule.sport ++
    words rest := by
  by_cases none : rule.sport = ascii "0"
  · rw [sportText, sportWords, if_pos none, if_pos none]
    exact blank_words 42 rest
  · have output : rule.chain = ascii "OUTPUT" := valid.sport.resolve_right none
    have outputs : isMatch "OUTPUT" rule.chain = true := by rw [output]; decide
    rw [sportText, sportWords, if_neg none, if_neg none]
    by_cases reply : rule.sport = ascii "echo-reply"
    · rw [if_pos reply, if_pos reply]
      exact icmp_words "echo-reply" 18 rest (by decide)
    · rw [if_neg reply, if_neg reply, if_pos outputs]
      exact match_words "--sport" rule.protocol rule.sport rest (by decide) protocolWord portWord

theorem dport_words (rule : FtmRule) (rest : Bytes) (valid : InFormat rule) (protocolWord : isWord rule.protocol = true)
    (portWord : isWord rule.dport = true) :
    words (dportText rule.chain rule.protocol rule.dport ++ rest) = dportWords rule.protocol rule.dport ++
    words rest := by
  by_cases none : rule.dport = ascii "0"
  · rw [dportText, dportWords, if_pos none, if_pos none]
    exact blank_words 42 rest
  · have input : rule.chain = ascii "INPUT" := valid.dport.resolve_right none
    rw [dportText, dportWords, if_neg none, if_neg none]
    by_cases request : rule.dport = ascii "echo-request"
    · rw [if_pos request, if_pos request]
      exact icmp_words "echo-request" 16 rest (by decide)
    · rw [if_neg request, if_neg request, if_pos input]
      exact match_words "--dport" rule.protocol rule.dport rest (by decide) protocolWord portWord

def ruleWords (rule : FtmRule) : List Bytes :=
  [ascii "-A", rule.chain] ++ (directionWords rule.direction rule.ifname ++ (addressWords "-s" rule.sip ++
    (addressWords "-d" rule.dip ++ (protocolWords rule.protocol ++ (sportWords rule.protocol rule.sport ++
      (dportWords rule.protocol rule.dport ++ [ascii "-j", rule.policy]))))))

def HasWords (rule : FtmRule) : Prop := ∀ field ∈ rule.record, isWord field = true

theorem protocol_known (rule : FtmRule) (valid : InFormat rule) :
    rule.protocol = ascii "all" ∨ rule.protocol = ascii "tcp" ∨ rule.protocol = ascii "udp" ∨ rule.protocol =
    ascii "icmp" := by
  have known := valid.protocol
  by_cases forward : rule.chain = ascii "FORWARD"
  · rw [if_pos forward] at known
    exact Or.inl known
  · rw [if_neg forward] at known
    exact Or.inr known

theorem iptables_rule_parts (rule : FtmRule) : iptablesRule rule.record =
    optionText "-A" 8 rule.chain ++ (directionText rule.direction rule.ifname ++ (addressText "-s" rule.sip ++
      (addressText "-d" rule.dip ++ (protocolText rule.protocol ++ (sportText rule.chain rule.protocol rule.sport ++
        (dportText rule.chain rule.protocol rule.dport ++ (ascii "-j " ++ padTo 8 32 rule.policy))))))) := by
  simp only [iptablesRule, List.append_assoc]
  rfl

theorem iptables_rule_words (rule : FtmRule) (valid : InFormat rule) (hasWords : HasWords rule) :
    words (iptablesRule rule.record) = ruleWords rule := by
  simp only [HasWords, FtmRule.record, List.forall_mem_cons] at hasWords
  obtain ⟨_, chain, _, ifname, sip, dip, protocol, sport, dport, policy, _⟩ := hasWords
  have last : words (ascii "-j " ++ padTo 8 32 rule.policy) = [ascii "-j", rule.policy] := by
    have flag := words_word_space (ascii "-j") (padTo 8 32 rule.policy) 32 (by decide) (by decide)
    rw [pad_words 8 rule.policy policy] at flag
    exact flag
  rw [iptables_rule_parts, option_words "-A" 8 rule.chain _ (by decide) chain,
    direction_words _ _ _ valid.direction ifname,
    address_words "-s" _ _ (by decide) sip, address_words "-d" _ _ (by decide) dip,
    protocol_words _ _ (protocol_known rule valid),
    sport_words rule _ valid protocol sport, dport_words rule _ valid protocol dport, last]
  rfl

section
variable (second : Bytes) (state : AwkState) (scan : Scan) (rest : List Bytes)

theorem convert_chain (chain : Bytes) : convertWords second state scan 0 ([ascii "-A", chain] ++ rest) =
    convertWords second state { scan with chain := some chain } 0 rest := rfl

theorem convert_direction (direction ifname : Bytes) (known : direction = ascii "IN" ∨ direction = ascii "OUT") :
    convertWords second state scan 0 (directionWords direction ifname ++ rest) =
      convertWords second state { scan with direction := some direction, ifname := some ifname } 0 rest := by
  obtain rfl | rfl := known
  · rfl
  · rfl

def keptAddress (address : Bytes) : Option Bytes := if isAnyAddress address then some (ascii "0.0.0.0") else none

theorem convert_sip (sip : Bytes) (start : scan.sip = some (ascii "0.0.0.0")) :
    convertWords second state scan 0 (addressWords "-s" sip ++ rest) =
      convertWords second state { scan with sip := keptAddress sip } 0 rest := by
  by_cases any : isAnyAddress sip = true
  · rw [addressWords, keptAddress, if_pos any, if_pos any, ← start]
    rfl
  · rw [addressWords, keptAddress, if_neg any, if_neg any]
    rfl

theorem convert_dip (dip : Bytes) (start : scan.dip = some (ascii "0.0.0.0")) :
    convertWords second state scan 0 (addressWords "-d" dip ++ rest) =
      convertWords second state { scan with dip := keptAddress dip } 0 rest := by
  by_cases any : isAnyAddress dip = true
  · rw [addressWords, keptAddress, if_pos any, if_pos any, ← start]
    rfl
  · rw [addressWords, keptAddress, if_neg any, if_neg any]
    rfl

def keptProtocol (protocol : Bytes) : Option Bytes := if protocol = ascii "all" then none else some protocol

theorem convert_protocol (protocol : Bytes) (start : scan.protocol = none) :
    convertWords second state scan 0 (protocolWords protocol ++ rest) =
      convertWords second state { scan with protocol := keptProtocol protocol } 0 rest := by
  by_cases all : protocol = ascii "all"
  · rw [protocolWords, keptProtocol, if_pos all, if_pos all, ← start]
    rfl
  · rw [protocolWords, keptProtocol, if_neg all, if_neg all]
    rfl

-- An ICMP type is taken for the destination port of an incoming rule and
-- dropped otherwise, and the source port is not read at all.
def typeRead (direction kind port : Bytes) : Bytes := if direction = ascii "IN" then kind else port

theorem convert_icmp (kind direction port : Bytes) (known : direction = ascii "IN" ∨ direction = ascii "OUT")
    (start : scan.direction = some direction) (before : scan.dport = some port) :
    convertWords second state scan 0 ([ascii "--icmp-type", kind] ++ rest) =
      convertWords second state { scan with dport := some (typeRead direction kind port) } 0 rest := by
  obtain ⟨chain, _, ifname, sip, dip, protocol, sport, _, policy⟩ := scan
  subst start before
  obtain rfl | rfl := known
  · rfl
  · rfl

def sportRead (direction sport : Bytes) : Bytes :=
  if sport = ascii "echo-reply" then typeRead direction sport (ascii "0") else ascii "0"

def dportRead (direction sport dport : Bytes) : Bytes :=
  if dport = ascii "0" then sportRead direction sport
  else if dport = ascii "echo-request" then typeRead direction dport (sportRead direction sport)
  else dport

theorem convert_sport (direction protocol sport : Bytes) (known : direction = ascii "IN" ∨ direction = ascii "OUT")
    (start : scan.direction = some direction) (before : scan.dport = some (ascii "0")) :
    convertWords second state scan 0 (sportWords protocol sport ++ rest) =
      convertWords second state { scan with dport := some (sportRead direction sport) } 0 rest := by
  by_cases none : sport = ascii "0"
  · have unread : sportRead direction sport = ascii "0" := by rw [none]; rfl
    rw [sportWords, if_pos none, unread, ← before]
    rfl
  · rw [sportWords, sportRead, if_neg none]
    by_cases reply : sport = ascii "echo-reply"
    · rw [if_pos reply, if_pos reply, ← reply]
      exact convert_icmp second state scan rest sport direction _ known start before
    · rw [if_neg reply, if_neg reply, ← before]
      rfl

theorem convert_dport (direction protocol sport dport : Bytes) (known : direction = ascii "IN" ∨
    direction = ascii "OUT") (start : scan.direction = some direction) (before :
    scan.dport = some (sportRead direction sport)) :
    convertWords second state scan 0 (dportWords protocol dport ++ rest) =
      convertWords second state { scan with dport := some (dportRead direction sport dport) } 0 rest := by
  by_cases none : dport = ascii "0"
  · rw [dportWords, dportRead, if_pos none, if_pos none, ← before]
    rfl
  · rw [dportWords, dportRead, if_neg none, if_neg none]
    by_cases request : dport = ascii "echo-request"
    · rw [if_pos request, if_pos request, ← request]
      exact convert_icmp second state scan rest dport direction _ known start before
    · rw [if_neg request, if_neg request]
      rfl

end

def convertedScan (rule : FtmRule) : Scan :=
  ⟨some rule.chain, some rule.direction, some rule.ifname, keptAddress rule.sip, keptAddress rule.dip,
    keptProtocol rule.protocol,
    some (ascii "0"), some (dportRead rule.direction rule.sport rule.dport), some rule.policy⟩

theorem convert_rule (rule : FtmRule) (valid : InFormat rule) (second : Bytes) (state : AwkState) :
    convertWords second state convertStart 0 (ruleWords rule) = (state, convertedScan rule) := by
  rw [ruleWords, convert_chain, convert_direction _ _ _ _ _ _ valid.direction, convert_sip _ _ _ _ _ rfl,
    convert_dip _ _ _ _ _ rfl,
    convert_protocol _ _ _ _ _ rfl, convert_sport _ _ _ _ _ _ _ valid.direction rfl rfl,
    convert_dport _ _ _ _ _ _ _ _ valid.direction rfl rfl]
  rfl

end Ftm50s.Firewall
