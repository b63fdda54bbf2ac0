import Ftm50s.Cgi.Request

set_option autoImplicit false

namespace Ftm50s.Firewall

open Lib.Text Lib.Decimal Ftm50s.Cgi

structure Files where
  wan : Option Bytes
  service : Option Bytes
  iptables : Bytes
deriving DecidableEq, Repr

def headLines : List Bytes :=
  [ascii "*raw",
   ascii ":PREROUTING ACCEPT",
   ascii ":OUTPUT ACCEPT",
   ascii "COMMIT",
   ascii "",
   ascii "*nat",
   ascii ":PREROUTING ACCEPT",
   ascii ":INPUT ACCEPT",
   ascii ":OUTPUT ACCEPT",
   ascii ":POSTROUTING ACCEPT",
   ascii "-A POSTROUTING -o ppp0 -j MASQUERADE",
   ascii "COMMIT",
   ascii "",
   ascii "*mangle",
   ascii ":PREROUTING ACCEPT",
   ascii ":INPUT ACCEPT",
   ascii ":FORWARD ACCEPT",
   ascii ":OUTPUT ACCEPT",
   ascii ":POSTROUTING ACCEPT",
   ascii "COMMIT",
   ascii "",
   ascii "*filter",
   ascii ":INPUT ACCEPT",
   ascii ":FORWARD ACCEPT",
   ascii ":OUTPUT ACCEPT"]

def tailLines (szIF : Bytes) : List Bytes :=
  [ascii "-A OUTPUT  -o " ++ szIF ++ ascii " -p icmp --icmp-type echo-reply -j ACCEPT",
   ascii "-A FORWARD -i eth0 -j ACCEPT",
   ascii "-A FORWARD -o eth0 -j ACCEPT",
   ascii "-A FORWARD -i eth1 -j ACCEPT",
   ascii "-A FORWARD -o eth1 -j ACCEPT",
   ascii "COMMIT"]

def sourceText (lpszSIP : Bytes) : Bytes :=
  if lpszSIP ≠ ascii "0.0.0.0" then ascii "-s " ++ lpszSIP ++ ascii "\t" else []

def protoText (lpszProto : Bytes) (lpszDPort : Option Bytes) : Bytes :=
  if ascii "all" = lpszProto then ascii "-p " ++ lpszProto ++ ascii "\t"
  else if ascii "icmp" = lpszProto then ascii "-p " ++ lpszProto ++ ascii " --icmp-type echo-request\t"
  else ascii "-p " ++ lpszProto ++ ascii " --dport " ++ shown lpszDPort ++ ascii "\t"

def ruleLine (lpszSIP lpszProto : Bytes) (lpszDPort : Option Bytes) : Bytes :=
  ascii "-A INPUT \t" ++ sourceText lpszSIP ++ protoText lpszProto lpszDPort ++ ascii "-j DROP"

-- The loop over the numbered parameters. strcmp of a missing sip or proto is
-- undefined, which none stands for; the fuel outlasts every request.
def ruleLines (req : Request) : Nat → Nat → Option (List Bytes)
  | 0, _ => none
  | fuel + 1, nRules =>
      match getstrf req "sip" nRules, getstrf req "proto" nRules, getstrf req "dport" nRules with
      | none, none, none => some []
      | some lpszSIP, some lpszProto, lpszDPort =>
          (ruleLines req fuel (nRules + 1)).map fun rest => ruleLine lpszSIP lpszProto lpszDPort :: rest
      | _, _, _ => none

-- fscanf("%s") of /etc/wan over the default; none when the word overruns szIF.
def wanInterface (wan : Option Bytes) : Option Bytes :=
  match wan with
  | none => some (ascii "ppp0")
  | some content =>
      match words content with
      | [] => some (ascii "ppp0")
      | word :: _ => if 64 ≤ word.length then none else some (cstr word)

-- Whether /tmp/iptables can be created and the service script be started
structure Device where
  creatable : Bool
  restarts : Bool
deriving DecidableEq, Repr

inductive SetReply where
  | noState
  | notCreated
  | notRestarted
  | ok
deriving DecidableEq, Repr

def setText : SetReply → Bytes
  | .noState => putHeader ++ putError "STATUS_NETFILTER" none
  | .notCreated => putHeader ++ putError "SET_NETFILTER" (some "Can't not create file\n")
  | .notRestarted => putHeader ++ putHeader ++ putError "SET_NETFILTER" (some "Occurred error when iptables updating\n")
  | .ok => putHeader ++ putHeader ++ putOK "SET_NETFILTER"

-- FTMC_Netfilter, cmd=set
def netfilterSet (device : Device) (files : Files) (req : Request) : Option (Files × SetReply) :=
  match getstr req "state" with
  | none => some (files, .noState)
  | some lpszState =>
      (wanInterface files.wan).bind fun szIF =>
        if !device.creatable then some (files, .notCreated)
        else
          (ruleLines req (req.entries.length + 1) 0).map fun rules =>
            ({ files with service := some lpszState, iptables := unlines (headLines ++ rules ++ tailLines szIF) },
              if device.restarts then .ok else .notRestarted)

structure Rule where
  sip : Bytes
  proto : Bytes
  dport : Bytes
deriving DecidableEq, Repr

structure Lists (req : Request) (rules : List Rule) : Prop where
  sip : ∀ i, getstrf req "sip" i = rules[i]?.map Rule.sip
  proto : ∀ i, getstrf req "proto" i = rules[i]?.map Rule.proto
  dport : ∀ i, getstrf req "dport" i = rules[i]?.map Rule.dport

def lineOf (rule : Rule) : Bytes := ruleLine rule.sip rule.proto (some rule.dport)

theorem lists_bound (req : Request) (rules : List Rule) (lists : Lists req rules) :
    rules.length ≤ req.entries.length := by
  apply numbered_bound req "sip"
  intro i inside
  rw [lists.sip i, List.getElem?_eq_getElem inside]
  exact nofun

theorem rule_lines_lists (req : Request) (rules : List Rule) (lists : Lists req rules) (fuel i : Nat)
    (enough : rules.length < fuel + i) : ruleLines req fuel i = if 0 < fuel then some
      ((rules.drop i).map lineOf) else none := by
  induction fuel generalizing i with
  | zero => rfl
  | succ fuel ih =>
      rw [if_pos (by omega), ruleLines, lists.sip i, lists.proto i, lists.dport i]
      by_cases inside : i < rules.length
      · rw [List.getElem?_eq_getElem inside, List.drop_eq_getElem_cons inside]
        have more : 0 < fuel := by omega
        simp only [Option.map_some, ih (i + 1) (by omega), if_pos more, List.map_cons, lineOf]
      · rw [List.getElem?_eq_none (by omega), List.drop_eq_nil_of_le (by omega)]
        rfl

theorem rule_lines_fuel (req : Request) (fuel more i k : Nat) (after : i ≤ k) (before : k < i + fuel)
    (gap : getstrf req "sip" k = none) : ruleLines req (fuel + more) i = ruleLines req fuel i := by
  induction fuel generalizing i with
  | zero => omega
  | succ fuel ih =>
      rw [Nat.add_right_comm, ruleLines, ruleLines]
      cases sip : getstrf req "sip" i with
      | none => cases getstrf req "proto" i <;> cases getstrf req "dport" i <;> rfl
      | some lpszSIP =>
          have later : i ≠ k := by
            rintro rfl
            rw [gap] at sip
            cases sip
          rw [ih (i + 1) (by omega) (by omega)]

end Ftm50s.Firewall
