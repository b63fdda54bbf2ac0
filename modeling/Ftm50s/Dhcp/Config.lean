import Ftm50s.Cgi.Request

set_option autoImplicit false

namespace Ftm50s.Dhcp

open Lib.Text Lib.Decimal Ftm50s.Cgi

def isStatic (lpszStatic : Option Bytes) : Bool := decide (lpszStatic = some (ascii "true"))

def toupper (c : UInt8) : UInt8 := if 97 ≤ c ∧ c ≤ 122 then c - 32 else c

def leaseLine (static : Bool) (mac ip : Bytes) : Bytes :=
  (if static then ascii "static_lease " else ascii "# static_lease ") ++ mac.map toupper ++ ascii " " ++ ip

-- The loop over the numbered pairs; the fuel outlasts every request.
def leaseLines (req : Request) (static : Bool) : Nat → Nat → List Bytes
  | 0, _ => []
  | fuel + 1, i =>
      match getstrf req "mac" i, getstrf req "ip" i with
      | some lpszMAC, some lpszIP => leaseLine static lpszMAC lpszIP :: leaseLines req static fuel (i + 1)
      | _, _ => []

def startEndLines (start last : Option Bytes) : List Bytes :=
  match start, last with
  | some lpszStart, some lpszEnd => [ascii "start " ++ lpszStart, ascii "end   " ++ lpszEnd]
  | _, _ => []

-- Every fprintf to /tmp/udhcpd.conf, a line each
def udhcpdLines (req : Request) : List Bytes :=
  [ascii "static " ++ (if isStatic (getstr req "static") then ascii "1" else ascii "0"), [],
    ascii "# The start and end of the IP lease block"] ++
  startEndLines (getstr req "start") (getstr req "end") ++
  [[], ascii "# The interface that udhcpd will use", ascii "interface " ++ shown (getstr req "if"), [],
  ascii "# Options"] ++
  ((getstr req "time").map fun lpszTime => ascii "opt lease " ++ lpszTime).toList ++ [[]] ++
  ((getstr req "router").map fun lpszRouter => ascii "opt router " ++ lpszRouter).toList ++ [[]] ++
  [ascii "opt subnet 255.255.255.0", []] ++
  ((getstr req "dns1").map fun lpszDNS1 => ascii "opt dns " ++ lpszDNS1).toList ++ [[]] ++
  ((getstr req "dns2").map fun lpszDNS2 => ascii "opt dns " ++ lpszDNS2).toList ++ [[]] ++
  [ascii "# Static leases map"] ++
  leaseLines req (isStatic (getstr req "static")) (req.entries.length + 1) 0

def udhcpdConf (req : Request) : Bytes := unlines (udhcpdLines req)

inductive SetReply where
  | notCreated
  | crashed
  | ok (enabled : Bool)
deriving DecidableEq, Repr

-- A request that lacks a parameter is told so and then carried out all the same;
-- without enable the last strcmp is undefined, with the file already in place.
def lacksParameter (req : Request) : Bool :=
  ["enable", "if", "static", "start", "end", "time", "dns1", "dns2"].any fun name => (getstr req name).isNone

-- FTMC_DHCP, cmd=set: the new /etc/udhcpd.conf and how the request ends
def dhcpSet (creatable : Bool) (conf : Bytes) (req : Request) : Bytes × SetReply :=
  if !creatable then (conf, .notCreated)
  else
    (udhcpdConf req,
      match getstr req "enable" with
      | none => .crashed
      | some lpszEnable => .ok (decide (lpszEnable = ascii "true")))

def setText (req : Request) (reply : SetReply) : Bytes :=
  (if lacksParameter req then
    putHeader ++ ascii "<DHCP_CONFIG>\n" ++ element (ascii "RET") (ascii "ERROR") ++
      element (ascii "MSG") (ascii "Invalid Parameter!") ++ ascii "</DHCP_CONFIG>\n"
   else []) ++
  match reply with
  | .notCreated =>
      putHeader ++ ascii "<DHCP_CONFIG>\n" ++ element (ascii "RET") (ascii "SYSTEM_ERROR") ++
        element (ascii "MSG") (ascii "Can't create file\n[/tmp/udhcpd.conf]") ++ ascii "</DHCP_CONFIG>\n"
  | .crashed => []
  | .ok _ => putHeader ++ ascii "<DHCP_CONFIG>\n" ++ element (ascii "RET") (ascii "OK") ++ ascii "</DHCP_CONFIG>\n"

structure Settings where
  interface : Bytes
  static : Bytes
  start : Bytes
  last : Bytes
  router : Bytes
  time : Bytes
  dns1 : Bytes
  dns2 : Bytes
  leases : List (Bytes × Bytes)
deriving DecidableEq, Repr

structure Gives (req : Request) (settings : Settings) : Prop where
  interface : getstr req "if" = some settings.interface
  static : getstr req "static" = some settings.static
  start : getstr req "start" = some settings.start
  last : getstr req "end" = some settings.last
  router : getstr req "router" = some settings.router
  time : getstr req "time" = some settings.time
  dns1 : getstr req "dns1" = some settings.dns1
  dns2 : getstr req "dns2" = some settings.dns2
  mac : ∀ i, getstrf req "mac" i = settings.leases[i]?.map Prod.fst
  ip : ∀ i, getstrf req "ip" i = settings.leases[i]?.map Prod.snd

def staticFlag (settings : Settings) : Bytes := if settings.static = ascii "true" then ascii "1" else ascii "0"

def settingLines (settings : Settings) : List Bytes :=
  [ascii "static " ++ staticFlag settings, [],
    ascii "# The start and end of the IP lease block", ascii "start " ++ settings.start, ascii "end   " ++
    settings.last,
    [], ascii "# The interface that udhcpd will use", ascii "interface " ++ settings.interface, [], ascii "# Options",
    ascii "opt lease " ++ settings.time, [], ascii "opt router " ++ settings.router, [],
    ascii "opt subnet 255.255.255.0", [], ascii "opt dns " ++ settings.dns1, [], ascii "opt dns " ++ settings.dns2, [],
    ascii "# Static leases map"]

def linesOf (settings : Settings) : List Bytes :=
  settingLines settings ++
    settings.leases.map fun lease => leaseLine (decide (settings.static = ascii "true")) lease.1 lease.2

theorem toupper_letter (c : UInt8) : toupper c = c ∨ (97 ≤ c.toNat ∧ 65 ≤ (toupper c).toNat) := by
  by_cases letter : 97 ≤ c ∧ c ≤ 122
  · right
    have range := letter
    rw [UInt8.le_iff_toNat_le, UInt8.le_iff_toNat_le] at range
    change 97 ≤ c.toNat ∧ c.toNat ≤ 122 at range
    have enough : 32 ≤ c := by
      rw [UInt8.le_iff_toNat_le]
      change 32 ≤ c.toNat
      omega
    rw [toupper, if_pos letter, UInt8.toNat_sub_of_le c 32 enough]
    change 97 ≤ c.toNat ∧ 65 ≤ c.toNat - 32
    omega
  · left
    rw [toupper, if_neg letter]

theorem lease_lines_gives (req : Request) (settings : Settings) (gives : Gives req settings) (static : Bool)
    (fuel i : Nat) (enough : settings.leases.length < fuel + i) :
    leaseLines req static fuel i = if 0 < fuel then
      (settings.leases.drop i).map fun lease => leaseLine static lease.1 lease.2 else [] := by
  induction fuel generalizing i with
  | zero => rfl
  | succ fuel ih =>
      rw [if_pos (by omega), leaseLines, gives.mac i, gives.ip i]
      by_cases inside : i < settings.leases.length
      · have more : 0 < fuel := by omega
        rw [List.getElem?_eq_getElem inside, List.drop_eq_getElem_cons inside]
        simp only [Option.map_some, ih (i + 1) (by omega), if_pos more, List.map_cons]
      · rw [List.getElem?_eq_none (by omega), List.drop_eq_nil_of_le (by omega)]
        rfl

theorem udhcpd_lines_gives (req : Request) (settings : Settings) (gives : Gives req settings) :
    udhcpdLines req = linesOf settings := by
  have bound : settings.leases.length ≤ req.entries.length := by
    apply numbered_bound req "mac"
    intro i inside
    rw [gives.mac i, List.getElem?_eq_getElem inside]
    exact nofun
  have same : isStatic (some settings.static) = decide (settings.static = ascii "true") := by
    simp only [isStatic, Option.some.injEq]
  have leases := lease_lines_gives req settings gives (decide (settings.static = ascii "true"))
    (req.entries.length + 1) 0
    (by omega)
  rw [if_pos (by omega), List.drop_zero] at leases
  rw [udhcpdLines, gives.static, gives.start, gives.last, gives.interface, gives.time, gives.router, gives.dns1,
    gives.dns2,
    same, leases]
  simp only [linesOf, settingLines, staticFlag, startEndLines, shown, Option.getD_some, Option.map_some,
    Option.toList_some, decide_eq_true_eq, List.cons_append,
    List.nil_append]

theorem lease_lines_fuel (req : Request) (static : Bool) (fuel more i k : Nat) (after : i ≤ k) (before : k < i + fuel)
    (gap : getstrf req "mac" k = none) : leaseLines req static (fuel + more) i = leaseLines req static fuel i := by
  induction fuel generalizing i with
  | zero => omega
  | succ fuel ih =>
      rw [Nat.add_right_comm, leaseLines, leaseLines]
      cases mac : getstrf req "mac" i with
      | none => rfl
      | some lpszMAC =>
          have later : i ≠ k := by
            rintro rfl
            rw [gap] at mac
            cases mac
          rw [ih (i + 1) (by omega) (by omega)]

end Ftm50s.Dhcp
