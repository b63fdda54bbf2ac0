import Ftm50s.Dhcp.RoundTrip
import Ftm50s.Udhcpd.Server

set_option autoImplicit false

namespace Ftm50s.Udhcpd

open Lib.Text Lib.Decimal Ftm50s.Cgi Ftm50s.Dhcp

def isDelim (c : UInt8) : Bool := c == 32 || c == 9

def isTokenByte (c : UInt8) : Bool := !isDelim c && c != 35

-- get_line_with_continuation: a line that ends in a backslash takes the next one in.
def joinFrom : Bytes → List Bytes → List Bytes
  | line, [] => [if line.getLast? = some 92 then line.dropLast else line]
  | line, next :: rest =>
      if line.getLast? = some 92 then joinFrom (line.dropLast ++ next) rest else line :: joinFrom next rest

def logicalLines : List Bytes → List Bytes
  | [] => []
  | line :: rest => joinFrom line rest

-- config_read for two tokens, the second of which takes the rest of the line: none
-- is a line that is skipped.
def configRead (line : Bytes) : Option (Bytes × Bytes) :=
  let text := (cstr line).dropWhile isDelim
  let after := text.dropWhile isTokenByte
  let rest := if after.head? = some 35 then [] else after.dropWhile isDelim
  if text.head? = none ∨ text.head? = some 35 ∨ rest.head? = none ∨ rest.head? = some 35 then none
  else some (text.takeWhile isTokenByte, (rest.takeWhile (· != 35)).rdropWhile isDelim)

-- The fields of server_config that the keywords fill in
structure Conf where
  startIp : Nat
  endIp : Nat
  maxLeases : Nat
  declineTime : Nat
  conflictTime : Nat
  offerTime : Nat
  minLeaseSec : Nat
  leaseTime : Option Nat
  staticLeases : List (Mac × Nat)
deriving DecidableEq, Repr

def letterValue (c : UInt8) : Nat :=
  if isDigit c then c.toNat - 48
  else if 97 ≤ c ∧ c ≤ 122 then c.toNat - 87
  else if 65 ≤ c ∧ c ≤ 90 then c.toNat - 55
  else 255

-- A whole number of 32 bits in one base
def wholeNumber (base : Nat) (digits : Bytes) : Option Nat :=
  let number := digits.foldl (fun acc c => base * acc + letterValue c) 0
  if digits ≠ [] ∧ digits.all (fun c => decide (letterValue c < base)) = true ∧ number < 0x100000000 then some number
  else none

-- bb_strtou32 with nothing behind the number, in base 10 and in base 0
def strtou10 (text : Bytes) : Option Nat := wholeNumber 10 text

def strtou0 (text : Bytes) : Option Nat :=
  match text with
  | 48 :: mark :: rest => if mark = 120 ∨ mark = 88 then wholeNumber 16 rest else wholeNumber 8 (48 :: mark :: rest)
  | _ => wholeNumber 10 text

-- strtok: the next token and what is behind the byte that ends it
def strtok (breaks : UInt8 → Bool) (text : Bytes) : Option (Bytes × Bytes) :=
  let text := text.dropWhile breaks
  if text = [] then none else some (text.takeWhile (!breaks ·), (text.dropWhile (!breaks ·)).drop 1)

-- dhcp_option_strings
def optionNames : List Bytes :=
  [ascii "subnet", ascii "timezone", ascii "router", ascii "dns", ascii "lprsrv", ascii "hostname", ascii "bootsize",
    ascii "domain",
    ascii "swapsrv", ascii "rootpath", ascii "ipttl", ascii "mtu", ascii "broadcast", ascii "routes", ascii "nisdomain",
    ascii "nissrv", ascii "ntpsrv", ascii "wins", ascii "lease", ascii "serverid", ascii "message", ascii "tftp",
    ascii "bootfile", ascii "search", ascii "sipsrv", ascii "staticroutes", ascii "vlanid", ascii "vlanpriority",
    ascii "ip6rd", ascii "msstaticroutes", ascii "wpad"]

inductive OptionLine where
  | exits
  | lease (time : Nat)
  | other
deriving DecidableEq, Repr

-- udhcp_str2optset, as far as it decides on the lease time
def str2optset (text : Bytes) : OptionLine :=
  match strtok (fun c => isDelim c || c == 61) text with
  | none => .other
  | some (name, rest) =>
      if (strtou0 name).any (· < 255) then .other
      else if !optionNames.contains name then .exits
      else if name = ascii "lease" then
        match (strtok (fun c => isDelim c || c == 44) rest).bind fun token => strtou0 token.1 with
        | none => .other
        | some time => .lease time
      else .other

-- An option that is there already is left as it is.
def readOption (conf : Conf) : OptionLine → Option Conf
  | .exits => none
  | .lease time => some { conf with leaseTime := some (conf.leaseTime.getD time) }
  | .other => some conf

section Read

-- host_and_af2sockaddr and ether_aton_r
variable (str2nip : Bytes → Option Nat) (aton : Bytes → Option Mac)

def readStaticLease (text : Bytes) : Option (Mac × Nat) :=
  match strtok isDelim text with
  | none => none
  | some (macString, rest) =>
      match aton macString, strtok isDelim rest with
      | some mac, some (ipString, _) => (str2nip ipString).map fun nip => (mac, nip)
      | _, _ => none

def tolower (c : UInt8) : UInt8 := if 65 ≤ c ∧ c ≤ 90 then c + 32 else c

def startDefault : Bytes := ascii "192.168.0.20"

def endDefault : Bytes := ascii "192.168.0.254"

-- One line of the file, none where the server gives up; a value that cannot be
-- read puts the default back.
def readKeyword (conf : Conf) (tokens : Bytes × Bytes) : Option Conf :=
  let key := tokens.1.map tolower
  let value := tokens.2
  if key = ascii "start" then some { conf with startIp := (str2nip value).getD ((str2nip startDefault).getD conf.startIp) }
  else if key = ascii "end" then some { conf with endIp := (str2nip value).getD ((str2nip endDefault).getD conf.endIp) }
  else if key = ascii "max_leases" then some { conf with maxLeases := (strtou10 value).getD 235 }
  else if key = ascii "decline_time" then some { conf with declineTime := (strtou10 value).getD 3600 }
  else if key = ascii "conflict_time" then some { conf with conflictTime := (strtou10 value).getD 3600 }
  else if key = ascii "offer_time" then some { conf with offerTime := (strtou10 value).getD 60 }
  else if key = ascii "min_lease" then some { conf with minLeaseSec := (strtou10 value).getD 60 }
  else if key = ascii "option" ∨ key = ascii "opt" then
    readOption conf (str2optset value)
  else if key = ascii "static_lease" then
    some { conf with staticLeases := conf.staticLeases ++ (readStaticLease str2nip aton value).toList }
  else some conf

def defaults : Conf := ⟨(str2nip startDefault).getD 0, (str2nip endDefault).getD 0, 235, 3600, 3600, 60, 60, none, []⟩

def readConfig (file : Bytes) : Option Conf :=
  ((logicalLines (lines file)).filterMap configRead).foldlM (readKeyword str2nip aton) (defaults str2nip)

end Read

-- What udhcpd_main makes of it: the configuration of the running server and the
-- number of its leases
def serverConfig (conf : Conf) (serverNip : Nat) (baseIpOnMac : Bool) : Config :=
  ⟨conf.startIp, conf.endIp, serverNip, conf.leaseTime.getD 864000, conf.minLeaseSec, conf.offerTime, conf.declineTime,
    conf.conflictTime, conf.staticLeases, baseIpOnMac⟩

def maxLeases (conf : Conf) : Nat := min conf.maxLeases ((conf.endIp + 0x100000000 - conf.startIp + 1) % 0x100000000)

end Ftm50s.Udhcpd
