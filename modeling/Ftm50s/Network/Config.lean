import Ftm50s.Cgi.Request

set_option autoImplicit false

namespace Ftm50s.Network

open Lib.Text Ftm50s.Cgi

-- What one turn of the loop prints to /tmp/interfaces
def interfaceLines (lpszIFName : Bytes) (lpszIPAddr lpszNetmask : Option Bytes) : List Bytes :=
  [ascii "auto " ++ lpszIFName,
   ascii "iface " ++ lpszIFName ++ ascii " inet static",
   ascii "\taddress " ++ shown lpszIPAddr,
   ascii "\tnetmask " ++ shown lpszNetmask,
   ascii "\tpre-up [ -f /etc/network/local-network-ok ]",
   []]

-- The loop ends at the first number without a name; the fuel outlasts every request.
def interfaceLoop (req : Request) : Nat → Nat → List Bytes
  | 0, _ => []
  | fuel + 1, i =>
      match getstrf req "ifname" i with
      | none => []
      | some lpszIFName =>
          interfaceLines lpszIFName (getstrf req "ipaddr" i) (getstrf req "netmask" i) ++ interfaceLoop req fuel (i + 1)

def interfaces (req : Request) : List Bytes :=
  [ascii "auto lo", ascii "\tiface lo inet loopback", []] ++ interfaceLoop req (req.entries.length + 1) 0

inductive SetReply where
  | notCreated
  | ok
deriving DecidableEq, Repr

def setText : SetReply → Bytes
  | .notCreated => element (ascii "RET") (ascii "ERROR")
  | .ok => putHeader ++ putOK "CONFIG_NETWORK"

-- FTMC_Network, cmd=set: the new /etc/network/interfaces and how the request ends
def networkSet (creatable : Bool) (conf : Bytes) (req : Request) : Bytes × SetReply :=
  if !creatable then (conf, .notCreated) else (unlines (interfaces req), .ok)

theorem interface_loop_fuel (req : Request) (fuel more i k : Nat) (after : i ≤ k) (before : k < i + fuel)
    (gap : getstrf req "ifname" k = none) : interfaceLoop req (fuel + more) i = interfaceLoop req fuel i := by
  induction fuel generalizing i with
  | zero => omega
  | succ fuel ih =>
      rw [Nat.add_right_comm, interfaceLoop, interfaceLoop]
      cases name : getstrf req "ifname" i with
      | none => rfl
      | some lpszIFName =>
          have later : i ≠ k := by
            rintro rfl
            rw [gap] at name
            cases name
          simp only
          rw [ih (i + 1) (by omega) (by omega)]

end Ftm50s.Network
