import Ftm50s.Firewall.Table
import Ftm50s.Lib.Filter

set_option autoImplicit false

namespace Ftm50s.Firewall

open Lib.Text Lib.Decimal Lib.Filter Ftm50s.Cgi

-- The variables that status_iptables.awk resets for every record. none is an
-- awk variable that was never set; the script's name for it is unknown.
structure Scan where
  chain : Option Bytes
  direction : Option Bytes
  ifname : Option Bytes
  sip : Option Bytes
  dip : Option Bytes
  protocol : Option Bytes
  sport : Option Bytes
  dport : Option Bytes
  policy : Option Bytes
deriving DecidableEq, Repr

def startScan : Scan :=
  ⟨none, some (ascii "IN"), some (ascii "ppp0"), some (ascii "0.0.0.0"), some (ascii "0.0.0.0"), none, some (ascii "0"),
    some (ascii "0"), none⟩

def isMatch (pattern : String) (text : Bytes) : Bool := occurs (ascii pattern) text

def startsWith (pattern : String) (text : Bytes) : Bool := (ascii pattern).isPrefixOf text

-- The chain of tests on array[i]: what is set from the elements that follow, and
-- how many of them are skipped. The second tests inside -m and --icmp-type look
-- at array[i] again and never hold.
def scanWord (scan : Scan) (word : Bytes) (rest : List Bytes) : Scan × Nat :=
  if startsWith "-A" word then ({ scan with chain := rest[0]? }, 1)
  else if word = ascii "-i" then ({ scan with direction := some (ascii "IN"), ifname := rest[0]? }, 1)
  else if word = ascii "-o" then ({ scan with direction := some (ascii "OUT"), ifname := rest[0]? }, 1)
  else if word = ascii "-s" then ({ scan with sip := rest[0]? }, 1)
  else if word = ascii "-d" then ({ scan with dip := rest[0]? }, 1)
  else if word = ascii "-p" then ({ scan with protocol := rest[0]? }, 1)
  else if word = ascii "-m" then
    if rest[1]? = some (ascii "--dport") then ({ scan with dport := rest[2]? }, 3)
    else if word = ascii "--sport" then ({ scan with sport := rest[2]? }, 3)
    else (scan, 3)
  else if word = ascii "--sport" then ({ scan with sport := rest[0]? }, 1)
  else if word = ascii "--dport" then ({ scan with dport := rest[0]? }, 1)
  else if word = ascii "--icmp-type" then
    if scan.direction.any (isMatch "IN") then ({ scan with dport := rest[0]? }, 1)
    else if isMatch "OUT" word then ({ scan with sport := rest[0]? }, 1)
    else (scan, 1)
  else if word = ascii "-j" then ({ scan with policy := rest[0]? }, 1)
  else ({ scan with chain := none }, 0)

def scanWords (scan : Scan) : Nat → List Bytes → Scan
  | _, [] => scan
  | skip + 1, _ :: rest => scanWords scan skip rest
  | 0, word :: rest => scanWords (scanWord scan word rest).1 (scanWord scan word rest).2 rest

def signless (text : Bytes) : Bytes := if text.head? = some 43 ∨ text.head? = some 45 then text.drop 1 else text

def isHexDigit (c : UInt8) : Bool := isDigit c || (97 ≤ c && c ≤ 102) || (65 ≤ c && c ≤ 70)

def digitNumber (c : UInt8) : Nat := if isDigit c then c.toNat - 48 else if 97 ≤ c then c.toNat - 87 else c.toNat - 55

-- The digits before and behind a point as one number, how many are behind it, and
-- the rest; none without a digit
def mantissa (base : Nat) (isBaseDigit : UInt8 → Bool) (text : Bytes) : Option (Nat × Nat × Bytes) :=
  let whole := text.takeWhile isBaseDigit
  let after := text.dropWhile isBaseDigit
  let places := if after.head? = some 46 then (after.drop 1).takeWhile isBaseDigit else []
  let rest := if after.head? = some 46 then (after.drop 1).dropWhile isBaseDigit else after
  if whole ++ places = [] then none
  else some ((whole ++ places).foldl (fun number c => base * number + digitNumber c) 0, places.length, rest)

-- An exponent behind its letter, zero where there is none
def exponent (letter : UInt8) (text : Bytes) : Int × Bytes :=
  let digits := signless (text.drop 1)
  if (text.head? = some letter ∨ text.head? = some (letter - 32)) ∧ digits.takeWhile isDigit ≠ [] then
    let power := Int.ofNat (digitsValue (digits.takeWhile isDigit))
    (if (text.drop 1).head? = some 45 then -power else power, digits.dropWhile isDigit)
  else (0, text)

-- The double that is nearest to number * base ^ power is zero: half of the
-- smallest one is 2 ^ -1075.
def vanishes (number base : Nat) (power : Int) : Bool :=
  number == 0 || (decide (power < 0) && decide (number * 2 ^ 1075 ≤ base ^ power.natAbs))

-- strtod: what is behind a number that it reads as zero, none behind another one,
-- inf and nan, and where there is no number
def strtodZero (text : Bytes) : Option Bytes :=
  let digits := signless (text.dropWhile isSpace)
  let hex := digits.head? = some 48 ∧ (digits[1]? = some 120 ∨ digits[1]? = some 88)
  match if hex then mantissa 16 isHexDigit (digits.drop 2) else none with
  | some (number, places, rest) =>
      if vanishes number 2 ((exponent 112 rest).1 - 4 * places) then some (exponent 112 rest).2 else none
  | none =>
      (mantissa 10 isDigit digits).bind fun (number, places, rest) =>
        if vanishes number 10 ((exponent 101 rest).1 - places) then some (exponent 101 rest).2 else none

-- my_strtod with ENABLE_DESKTOP: strtoull takes whole hexadecimal and octal numbers
-- first, and an octal one goes to strtod if a digit or a point follows it.
def myStrtodZero (text : Bytes) : Option Bytes :=
  match text with
  | 48 :: c :: rest =>
      if c = 120 ∨ c = 88 then
        if (rest.takeWhile isHexDigit).isEmpty then some (c :: rest)
        else if (rest.takeWhile isHexDigit).all (· == 48) then some (rest.dropWhile isHexDigit)
        else none
      else if isDigit c then
        let octal := fun d : UInt8 => 48 ≤ d && d ≤ 55
        let after := (c :: rest).dropWhile octal
        if after.head?.any fun d => isDigit d || d == 46 then strtodZero text
        else if ((c :: rest).takeWhile octal).all (· == 48) then some after
        else none
      else strtodZero text
  | _ => strtodZero text

-- A field that awk reads as the number zero: getvar_i with nothing behind the number
def isZeroNumber (text : Bytes) : Bool := (myStrtodZero text).any fun rest => rest.all fun c => c == 32 || c == 9

-- variable != unknown: an unset variable is both the empty string and zero.
def isKnown : Option Bytes → Bool
  | none => false
  | some text => if isZeroNumber text then false else text != []

-- The format "%-7s %-7s %-7s %-15s %-15s %-7s %-15s %-15s %-7s"
def filterFields (scan : Scan) (protocol : Option Bytes) : List (Nat × Bytes) :=
  [(7, scan.chain.getD []), (7, scan.direction.getD []), (7, scan.ifname.getD []), (15, scan.sip.getD []),
   (15, scan.dip.getD []), (7, protocol.getD []), (15, scan.sport.getD []), (15, scan.dport.getD []),
   (7, scan.policy.getD [])]

def filterText (scan : Scan) (protocol : Option Bytes) : Bytes := columns (filterFields scan protocol)

def filterOf (scan : Scan) : Option Bytes :=
  if scan.chain.any fun chain => startsWith "INPUT" chain || startsWith "OUTPUT" chain then
    if isKnown scan.direction && isKnown scan.ifname && isKnown scan.protocol && isKnown scan.policy then
      some (filterText scan scan.protocol)
    else none
  else if scan.chain.any (startsWith "FORWARD") then
    if isKnown scan.chain && isKnown scan.direction && isKnown scan.ifname && isKnown scan.policy then
      some (filterText scan (some (ascii "all")))
    else none
  else none

structure AwkState where
  inputPolicy : Bytes
  outputPolicy : Bytes
  forwardPolicy : Bytes
  filters : List Bytes
deriving DecidableEq, Repr

def awkBegin : AwkState := ⟨ascii "ACCEPT", ascii "ACCEPT", ascii "ACCEPT", []⟩

def awkRecord (state : AwkState) (line : Bytes) : AwkState :=
  let array := words line
  let first := array.getD 0 []
  if isMatch ":INPUT" first then { state with inputPolicy := array.getD 1 [] }
  else if isMatch ":OUTPUT" first then { state with outputPolicy := array.getD 1 [] }
  else if isMatch ":FORWARD" first then { state with forwardPolicy := array.getD 1 [] }
  else { state with filters := state.filters ++ (filterOf (scanWords startScan 0 array)).toList }

-- The policy of the output chain is printed from a misspelt variable, so it is empty.
def awkEnd (state : AwkState) : List Bytes :=
  [ascii "TABLE filter", ascii "CHAIN INPUT " ++ state.inputPolicy, ascii "CHAIN FORWARD " ++ state.forwardPolicy,
    ascii "CHAIN OUTPUT "] ++ state.filters.map fun text => ascii "RULE  " ++ text

def statusIptables (iptables : Bytes) : Bytes := unlines (awkEnd ((lines iptables).foldl awkRecord awkBegin))

inductive Entry where
  | table (szName : Bytes)
  | chain (szName szPolicy : Bytes)
  | rule (szPipe szDir szInterface szSIP szDIP szProto szSPort szDPort szPolicy : Bytes)
deriving DecidableEq, Repr

def entryText : Entry → Bytes
  | .table szName => element (ascii "TABLE") szName
  | .chain szName szPolicy =>
      ascii "<CHAIN><" ++ szName ++ ascii ">" ++ szPolicy ++ ascii "</" ++ szName ++ ascii "></CHAIN>\n"
  | .rule szPipe szDir szInterface szSIP szDIP szProto szSPort szDPort szPolicy =>
      ascii "<RULE>\n" ++ element (ascii "PIPE") szPipe ++ element (ascii "DIR") szDir ++
        element (ascii "IF") szInterface ++ element (ascii "SIP") szSIP ++ element (ascii "DIP") szDIP ++
        element (ascii "PROTO") szProto ++ element (ascii "SPORT") szSPort ++ element (ascii "DPORT") szDPort ++
        element (ascii "POLICY") szPolicy ++ ascii "</RULE>\n"

-- One turn of the loop over the script's output. Every array has 64 bytes; one
-- that sscanf did not reach reads as the stack has it. none when a word does
-- not fit.
def statusLine (stale : Nat → Bytes) (raw : Bytes) : Option (List Entry) :=
  let scanned := words (cstr raw)
  let array := fun i => scanned.getD i (stale i)
  let fits := fun count => (scanned.take count).all fun word => decide (word.length < 64)
  if !fits 1 then none
  else if array 0 = ascii "TABLE" then
    if !fits 2 then none else some [.table (array 1)]
  else if array 0 = ascii "CHAIN" then
    if !fits 3 then none else some [.chain (array 1) (array 2)]
  else if array 0 = ascii "RULE" then
    if !fits 10 then none
    else if array 1 = ascii "INPUT" then
      some [.rule (array 1) (array 2) (array 3) (array 4) (array 5) (array 6) (array 7) (array 8) (array 9)]
    else some []
  else some []

-- fscanf("%s") of the service file into szBuf, whose 1024 bytes it may overrun
def serviceEnabled (service : Option Bytes) : Option Bool :=
  match service with
  | none => some false
  | some content =>
      match words content with
      | [] => some false
      | word :: _ => if 1024 ≤ word.length then none else some (decide (cstr word = ascii "enabled"))

-- FTMC_Netfilter, cmd=status
def netfilterStatus (stale : Nat → Bytes) (files : Files) : Option (Bool × List Entry) :=
  (serviceEnabled files.service).bind fun enabled =>
    ((fgets 1024 (statusIptables files.iptables)).mapM (statusLine stale)).map fun entries => (enabled, entries.flatten)

def statusText (answer : Bool × List Entry) : Bytes :=
  putHeader ++ ascii "<STATUS_NETWORK>\n" ++
    element (ascii "STATE") (if answer.1 then ascii "enabled" else ascii "disabled") ++ answer.2.flatMap entryText ++
    ascii "</STATUS_NETWORK>\n"

end Ftm50s.Firewall
