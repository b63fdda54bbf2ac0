import Ftm50s.Dhcp.Config
import Ftm50s.Lib.Filter

set_option autoImplicit false

namespace Ftm50s.Dhcp

open Lib.Text Lib.Decimal Lib.Filter Ftm50s.Cgi

structure AwkState where
  static : Bytes
  interface : Bytes
  ipPoolStart : Bytes
  ipPoolEnd : Bytes
  leaseTime : Bytes
  router : Bytes
  dnsCnt : Nat
  dns1 : Bytes
  dns2 : Bytes
  staticLease : List (Bytes × Bytes)
deriving DecidableEq, Repr

def awkBegin : AwkState :=
  ⟨ascii "disable", ascii "eth0", ascii "192.168.0.20", ascii "192.168.0.254", ascii "86400", [], 0, [], [], []⟩

def startsWith (pattern : String) (text : Bytes) : Bool := (ascii pattern).isPrefixOf text

def countDns (state : AwkState) (value : Bytes) : AwkState :=
  let cnt := state.dnsCnt + 1
  { state with
    dnsCnt := cnt
    dns1 := if cnt = 1 then value else state.dns1
    dns2 := if cnt = 2 then value else state.dns2 }

-- One record, as the fields $1, $2, ... of its line. The tests are made one
-- after the other, each on the whole record.
def awkFields (state : AwkState) (fields : List Bytes) : AwkState :=
  let f := fun i => fields.getD (i - 1) []
  let state := if f 1 = ascii "static" then { state with static := f 2 } else state
  let state := if startsWith "interface" (f 1) then { state with interface := f 2 } else state
  let state := if startsWith "start" (f 1) then { state with ipPoolStart := f 2 } else state
  let state := if startsWith "end" (f 1) then { state with ipPoolEnd := f 2 } else state
  let state := if startsWith "opt" (f 1) && occurs (ascii "lease") (f 2) then { state with leaseTime := f 3 } else state
  let state := if startsWith "opt" (f 1) && occurs (ascii "router") (f 2) then { state with router := f 3 } else state
  let state := if startsWith "opt" (f 1) && occurs (ascii "dns") (f 2) then countDns state (f 3) else state
  let state :=
    if occurs (ascii "static_lease") (f 1) then { state with staticLease := state.staticLease ++ [(f 2, f 3)] }
    else state
  if startsWith "#" (f 1) && startsWith "static_lease" (f 2) then
    { state with staticLease := state.staticLease ++ [(f 3, f 4)] }
  else state

def awkRecord (state : AwkState) (line : Bytes) : AwkState := awkFields state (words line)

-- print "TAG: ", value: the comma puts a blank of its own behind the tag's.
def printValue (tag : String) (value : Bytes) : Bytes := ascii tag ++ ascii ":  " ++ value

def printLease (lease : Bytes × Bytes) : Bytes := ascii "STATIC_LEASE: " ++ lease.1 ++ ascii " " ++ lease.2

def awkEnd (state : AwkState) : List Bytes :=
  [printValue "INTERFACE" state.interface, printValue "START" state.ipPoolStart, printValue "END" state.ipPoolEnd,
    printValue "ROUTER" state.router, printValue "TIME" state.leaseTime, printValue "STATIC" state.static,
    printValue "DNS1" state.dns1, printValue "DNS2" state.dns2] ++
  (state.staticLease.filter fun lease => lease.1 != []).map printLease

-- status_dhcp.sh: the line about the running server, then the script's output
def statusDhcp (running : Bool) (conf : Bytes) : Bytes :=
  unlines ([if running then ascii "STATUS: running" else ascii "STATUS: stopped"] ++
    awkEnd ((lines conf).foldl awkRecord awkBegin))

inductive Entry where
  | value (tag text : Bytes)
  | lease (mac ip : Bytes)
deriving DecidableEq, Repr

def entryText : Entry → Bytes
  | .value tag text => element tag text
  | .lease mac ip =>
      ascii "<STATIC_LEASE>\n" ++ element (ascii "MAC") mac ++ element (ascii "IP") ip ++ ascii "</STATIC_LEASE>\n"

def valueTags : List Bytes :=
  [ascii "STATUS", ascii "INTERFACE", ascii "START", ascii "END", ascii "ROUTER", ascii "TIME", ascii "STATIC",
    ascii "DNS1",
   ascii "DNS2"]

-- One turn of the first loop of FTMC_DHCP, cmd=status, which goes by the number
-- of words that sscanf stored; each has 64 bytes.
def statusLine (raw : Bytes) : Option (List Entry) :=
  let scanned := (words (cstr raw)).take 3
  if !scanned.all fun word => decide (word.length < 64) then none
  else
    match scanned with
    | [szTag, szData0] =>
        some ((valueTags.filter fun tag => decide (szTag = tag ++ ascii ":")).map fun tag => .value tag szData0)
    | [szTag, szData0, szData1] => some (if szTag = ascii "STATIC_LEASE:" then [.lease szData0 szData1] else [])
    | _ => some []

def dhcpStatus (running : Bool) (conf : Bytes) : Option (List Entry) :=
  ((fgets 1024 (statusDhcp running conf)).mapM statusLine).map List.flatten

-- The whole answer; what the server's own lease table adds is text of its own.
def statusText (entries : List Entry) (leases : Bytes) : Bytes :=
  putHeader ++ ascii "<DHCP_SERVER>\n" ++ entries.flatMap entryText ++ leases ++ ascii "</DHCP_SERVER>\n"

end Ftm50s.Dhcp
