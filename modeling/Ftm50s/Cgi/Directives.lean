import Ftm50s.Lib.Directive
import Ftm50s.Firewall.Table
import Ftm50s.Dhcp.Config
import Ftm50s.Network.Config

set_option autoImplicit false

namespace Ftm50s.Cgi

open Lib.Text Lib.Decimal Lib.Directive Ftm50s.Firewall Ftm50s.Dhcp Ftm50s.Network

-- Two requests with the same parameters that choose the same branches of the
-- three handlers: what else the parameters hold is open.
structure SameSelectors (left right : Request) : Prop where
  present : ∀ name, (getData left name).isSome = (getData right name).isSome
  state : getstr left "state" = getstr right "state"
  enable : getstr left "enable" = getstr right "enable"
  static : getstr left "static" = getstr right "static"
  proto : ∀ i, getstrf left "proto" i = getstrf right "proto" i
  anySource : ∀ i, getstrf left "sip" i = some (ascii "0.0.0.0") ↔ getstrf right "sip" i = some (ascii "0.0.0.0")

-- The parameters that are printed and are no selectors hold no newline.
structure OneLine (req : Request) (names stems : List String) : Prop where
  named : ∀ name ∈ names, ∀ text, getstr req name = some text → (10 : UInt8) ∉ text
  numbered : ∀ stem ∈ stems, ∀ i text, getstrf req stem i = some text → (10 : UInt8) ∉ text

def firewallDirectives (device : Device) (files : Files) (req : Request) : Option (List (Option Bytes)) :=
  (netfilterSet device files req).map fun outcome => directives outcome.1.iptables

def dhcpDirectives (creatable : Bool) (conf : Bytes) (req : Request) : List (Option Bytes) :=
  directives (dhcpSet creatable conf req).1

def networkDirectives (creatable : Bool) (conf : Bytes) (req : Request) : List (Option Bytes) :=
  directives (networkSet creatable conf req).1

theorem same_option {α : Type} (left right : Option α) (same : left.isSome = right.isSome) :
    (left = none ∧ right = none) ∨ ∃ a b, left = some a ∧ right = some b := by
  cases left with
  | none =>
      cases right with
      | none => exact Or.inl ⟨rfl, rfl⟩
      | some b => cases same
  | some a =>
      cases right with
      | none => cases same
      | some b => exact Or.inr ⟨a, b, rfl, rfl⟩

section TwoRequests

variable (left right : Request) (same : SameSelectors left right)

include same

theorem same_named (name : String) : (getstr left name = none ∧ getstr right name = none) ∨
    ∃ a b, getstr left name = some a ∧ getstr right name = some b := by
  apply same_option
  simpa [getstr] using same.present (ascii name)

theorem same_numbered (stem : String) (i : Nat) : (getstrf left stem i = none ∧ getstrf right stem i = none) ∨
    ∃ a b, getstrf left stem i = some a ∧ getstrf right stem i = some b := by
  apply same_option
  simpa [getstrf] using same.present (ascii stem ++ decimal i)

end TwoRequests

theorem null_plain : (10 : UInt8) ∉ ascii "(null)" := by decide

theorem shown_plain (text : Option Bytes) (plain : ∀ given, text = some given → (10 : UInt8) ∉ given) :
    (10 : UInt8) ∉ shown text := by
  cases text with
  | none => exact null_plain
  | some given => exact plain given rfl

theorem marked_alike (mark : String) (text other : Bytes) (valid : isMark (ascii mark) = true)
    (plain : (10 : UInt8) ∉ text) (otherPlain : (10 : UInt8) ∉ other) : List.Forall₂ Alike [ascii mark ++ text]
      [ascii mark ++ other] :=
  .cons (alike_marked _ _ _ valid plain otherPlain) .nil

theorem fuel_swap (left right : Request) :
    left.entries.length + 1 + right.entries.length = right.entries.length + 1 + left.entries.length := by omega

theorem source_text_plain (sip : Bytes) (plain : (10 : UInt8) ∉ sip) : (10 : UInt8) ∉ sourceText sip := by
  have marks : (10 : UInt8) ∉ ascii "-s " ∧ (10 : UInt8) ∉ ascii "\t" := by decide
  unfold sourceText
  split
  · simp [marks, plain]
  · exact List.not_mem_nil

theorem proto_text_port (proto : Bytes) (dport : Option Bytes) (all : ascii "all" ≠ proto)
    (icmp : ascii "icmp" ≠ proto) :
    protoText proto dport ++ ascii "-j DROP" =
      ascii "-p " ++ (proto ++ 32 :: (ascii "--dport " ++ (shown dport ++ ascii "\t-j DROP"))) := by
  have gap : ascii " --dport " = 32 :: ascii "--dport " := rfl
  have tail : ascii "\t-j DROP" = ascii "\t" ++ ascii "-j DROP" := rfl
  rw [protoText, if_neg all, if_neg icmp, gap, tail]
  simp only [List.append_assoc, List.cons_append]

theorem rule_line_alike (sip otherSip proto : Bytes) (dport otherDport : Option Bytes) (sipPlain : (10 : UInt8) ∉ sip)
    (otherSipPlain : (10 : UInt8) ∉ otherSip) (dportPlain : (10 : UInt8) ∉ shown dport)
    (otherDportPlain : (10 : UInt8) ∉ shown otherDport) :
    Alike (ruleLine sip proto dport) (ruleLine otherSip proto otherDport) := by
  have source := source_text_plain sip sipPlain
  have otherSource := source_text_plain otherSip otherSipPlain
  have portless : ∀ rest, (10 : UInt8) ∉ rest →
      Alike (ascii "-A INPUT \t" ++ (sourceText sip ++ rest)) (ascii "-A INPUT \t" ++
      (sourceText otherSip ++ rest)) := by
    intro rest restPlain
    exact alike_marked _ _ _ (by decide) (by simp [source, restPlain]) (by simp [otherSource, restPlain])
  rw [ruleLine, ruleLine, List.append_assoc, List.append_assoc, List.append_assoc, List.append_assoc]
  by_cases all : ascii "all" = proto
  · subst all
    exact portless (ascii "-p all\t-j DROP") (by decide)
  · by_cases icmp : ascii "icmp" = proto
    · subst icmp
      exact portless (ascii "-p icmp --icmp-type echo-request\t-j DROP") (by decide)
    · have option : (10 : UInt8) ∉ ascii "-p " := by decide
      have drop : (10 : UInt8) ∉ ascii "\t-j DROP" := by decide
      rw [proto_text_port proto dport all icmp, proto_text_port proto otherDport all icmp,
        ← List.append_assoc (sourceText sip),
        ← List.append_assoc (sourceText otherSip)]
      exact alike_between _ _ _ _ proto _ _ (by decide) (by decide) (by simp [source, option])
        (by simp [otherSource, option])
        (by simp [dportPlain, drop]) (by simp [otherDportPlain, drop])

theorem toupper_newline (c : UInt8) (newline : toupper c = 10) : c = 10 := by
  rcases toupper_letter c with same | ⟨_, upper⟩
  · exact same.symm.trans newline
  · rw [newline] at upper
    exact absurd upper (by decide)

theorem lease_line_alike (static : Bool) (mac otherMac ip otherIp : Bytes) (macPlain : (10 : UInt8) ∉ mac)
    (otherMacPlain : (10 : UInt8) ∉ otherMac) (ipPlain : (10 : UInt8) ∉ ip) (otherIpPlain : (10 : UInt8) ∉ otherIp) :
    Alike (leaseLine static mac ip) (leaseLine static otherMac otherIp) := by
  have upper : ∀ text : Bytes, (10 : UInt8) ∉ text → (10 : UInt8) ∉ text.map toupper := by
    intro text plain member
    obtain ⟨c, inside, newline⟩ := List.mem_map.mp member
    exact plain (toupper_newline c newline ▸ inside)
  have blank : (10 : UInt8) ∉ ascii " " := by decide
  have macUpper := upper mac macPlain
  have otherUpper := upper otherMac otherMacPlain
  rw [leaseLine, leaseLine, List.append_assoc, List.append_assoc, List.append_assoc, List.append_assoc]
  cases static with
  | true =>
      exact alike_marked (ascii "static_lease ") _ _ (by decide) (by simp [macUpper, blank, ipPlain])
        (by simp [otherUpper, blank, otherIpPlain])
  | false =>
      exact alike_marked (ascii "# static_lease ") _ _ (by decide) (by simp [macUpper, blank, ipPlain])
        (by simp [otherUpper, blank, otherIpPlain])

def dhcpNames : List String := ["if", "start", "end", "time", "router", "dns1", "dns2"]

theorem interface_lines_alike (name otherName : Bytes) (address otherAddress netmask otherNetmask : Option Bytes)
    (namePlain : (10 : UInt8) ∉ name) (otherNamePlain : (10 : UInt8) ∉ otherName)
    (addressPlain : (10 : UInt8) ∉ shown address) (otherAddressPlain : (10 : UInt8) ∉ shown otherAddress)
    (netmaskPlain : (10 : UInt8) ∉ shown netmask) (otherNetmaskPlain : (10 : UInt8) ∉ shown otherNetmask) :
    List.Forall₂ Alike (interfaceLines name address netmask) (interfaceLines otherName otherAddress otherNetmask) := by
  have inet : (10 : UInt8) ∉ ascii " inet static" := by decide
  rw [interfaceLines, interfaceLines, List.append_assoc, List.append_assoc]
  refine .cons (alike_marked (ascii "auto ") _ _ (by decide) namePlain otherNamePlain) ?_
  refine .cons (alike_marked (ascii "iface ") _ _ (by decide) (by simp [namePlain, inet])
    (by simp [otherNamePlain, inet])) ?_
  refine .cons (alike_marked (ascii "\taddress ") _ _ (by decide) addressPlain otherAddressPlain) ?_
  exact .cons (alike_marked (ascii "\tnetmask ") _ _ (by decide) netmaskPlain otherNetmaskPlain)
    (alike_same _)

section TwoRequests

variable (left right : Request) (same : SameSelectors left right)

include same

theorem rule_lines_alike (leftPlain : OneLine left [] ["sip", "dport"]) (rightPlain : OneLine right [] ["sip", "dport"])
    (fuel i : Nat) : Option.Rel (List.Forall₂ Alike) (ruleLines left fuel i) (ruleLines right fuel i) := by
  induction fuel generalizing i with
  | zero => exact .none
  | succ fuel ih =>
      have dport := shown_plain _ (leftPlain.numbered "dport" (by simp) i)
      have otherDport := shown_plain _ (rightPlain.numbered "dport" (by simp) i)
      rw [ruleLines, ruleLines, same.proto i]
      rcases same_numbered left right same "sip" i with ⟨absent, otherAbsent⟩ | ⟨sip, otherSip, given, otherGiven⟩
      · rw [absent, otherAbsent]
        rcases same_numbered left right same "dport" i with ⟨none, otherNone⟩ | ⟨port, otherPort, some, otherSome⟩
        · rw [none, otherNone]
          cases getstrf right "proto" i with
          | none => exact .some .nil
          | some proto => exact .none
        · rw [some, otherSome]
          cases getstrf right "proto" i <;> exact .none
      · rw [given, otherGiven]
        cases getstrf right "proto" i with
        | none => exact .none
        | some proto =>
            have line := rule_line_alike sip otherSip proto (getstrf left "dport" i) (getstrf right "dport" i)
              (leftPlain.numbered "sip" (by simp) i sip given)
                (rightPlain.numbered "sip" (by simp) i otherSip otherGiven)
              dport otherDport
            have rest := ih (i + 1)
            revert rest
            generalize ruleLines left fuel (i + 1) = lines
            generalize ruleLines right fuel (i + 1) = otherLines
            rintro (rest | _)
            · exact .some (.cons line rest)
            · exact .none

theorem firewall_directives_same (device : Device) (files : Files) (leftPlain : OneLine left [] ["sip", "dport"])
    (rightPlain : OneLine right [] ["sip", "dport"]) :
    firewallDirectives device files left = firewallDirectives device files right := by
  obtain ⟨k, inside, gap⟩ := numbered_gap left "sip"
  obtain ⟨j, otherInside, otherGap⟩ := numbered_gap right "sip"
  have rules := rule_lines_alike left right same leftPlain rightPlain (left.entries.length + 1 + right.entries.length) 0
  rw [rule_lines_fuel left _ right.entries.length 0 k (by omega) (by omega) gap, fuel_swap left right,
    rule_lines_fuel right _ left.entries.length 0 j (by omega) (by omega) otherGap] at rules
  rw [firewallDirectives, firewallDirectives, netfilterSet, netfilterSet, same.state]
  cases getstr right "state" with
  | none => rfl
  | some lpszState =>
      cases wanInterface files.wan with
      | none => rfl
      | some szIF =>
          by_cases blocked : (!device.creatable) = true
          · simp only [Option.bind_some, if_pos blocked]
          · simp only [Option.bind_some, if_neg blocked]
            revert rules
            generalize ruleLines left (left.entries.length + 1) 0 = lines
            generalize ruleLines right (right.entries.length + 1) 0 = otherLines
            rintro (rules | _)
            · have table := List.rel_append (List.rel_append (alike_same headLines) rules) (alike_same (tailLines szIF))
              simp only [Option.map_some, directives_alike _ _ table]
            · simp only [Option.map_none]

theorem optional_alike (mark name : String) (names stems : List String) (known : name ∈ names)
    (leftPlain : OneLine left names stems) (rightPlain : OneLine right names stems) (valid : isMark (ascii mark) =
    true) :
    List.Forall₂ Alike ((getstr left name).map fun text => ascii mark ++ text).toList
      ((getstr right name).map fun text => ascii mark ++ text).toList := by
  rcases same_named left right same name with ⟨absent, otherAbsent⟩ | ⟨text, other, found, otherFound⟩
  · rw [absent, otherAbsent]
    exact .nil
  · rw [found, otherFound]
    exact marked_alike mark text other valid (leftPlain.named name known text found)
      (rightPlain.named name known other otherFound)

theorem lease_lines_alike (static : Bool) (names : List String) (leftPlain : OneLine left names ["mac", "ip"])
    (rightPlain : OneLine right names ["mac", "ip"]) (fuel i : Nat) :
    List.Forall₂ Alike (leaseLines left static fuel i) (leaseLines right static fuel i) := by
  induction fuel generalizing i with
  | zero => exact .nil
  | succ fuel ih =>
      rw [leaseLines, leaseLines]
      rcases same_numbered left right same "mac" i with ⟨absent, otherAbsent⟩ | ⟨mac, otherMac, given, otherGiven⟩
      · rw [absent, otherAbsent]
        exact .nil
      · rw [given, otherGiven]
        rcases same_numbered left right same "ip" i with ⟨absent, otherAbsent⟩ | ⟨ip, otherIp, found, otherFound⟩
        · rw [absent, otherAbsent]
          exact .nil
        · rw [found, otherFound]
          refine .cons ?_ (ih (i + 1))
          exact lease_line_alike static mac otherMac ip otherIp (leftPlain.numbered "mac" (by simp) i mac given)
            (rightPlain.numbered "mac" (by simp) i otherMac otherGiven) (leftPlain.numbered "ip" (by simp) i ip found)
            (rightPlain.numbered "ip" (by simp) i otherIp otherFound)

theorem range_alike (leftPlain : OneLine left dhcpNames ["mac", "ip"]) (rightPlain : OneLine right dhcpNames
    ["mac", "ip"]) :
    List.Forall₂ Alike (startEndLines (getstr left "start") (getstr left "end"))
      (startEndLines (getstr right "start") (getstr right "end")) := by
  rcases same_named left right same "start" with ⟨absent, otherAbsent⟩ | ⟨start, otherStart, given, otherGiven⟩
  · rw [absent, otherAbsent]
    exact .nil
  · rcases same_named left right same "end" with ⟨absent, otherAbsent⟩ | ⟨last, otherLast, found, otherFound⟩
    · rw [given, otherGiven, absent, otherAbsent]
      exact .nil
    · rw [given, otherGiven, found, otherFound]
      refine .cons ?_ (marked_alike "end   " last otherLast (by decide)
        (leftPlain.named "end" (by decide) last found) (rightPlain.named "end" (by decide) otherLast otherFound))
      exact alike_marked (ascii "start ") start otherStart (by decide)
        (leftPlain.named "start" (by decide) start given) (rightPlain.named "start" (by decide) otherStart otherGiven)

theorem udhcpd_lines_alike (leftPlain : OneLine left dhcpNames ["mac", "ip"]) (rightPlain : OneLine right dhcpNames
    ["mac", "ip"]) : List.Forall₂ Alike (udhcpdLines left) (udhcpdLines right) := by
  have interface := alike_marked (ascii "interface ") _ _ (by decide)
    (shown_plain _ (leftPlain.named "if" (by decide))) (shown_plain _ (rightPlain.named "if" (by decide)))
  have option : ∀ mark name, name ∈ dhcpNames → _ → _ := fun mark name known =>
    optional_alike left right same mark name dhcpNames ["mac", "ip"] known leftPlain rightPlain
  obtain ⟨k, inside, gap⟩ := numbered_gap left "mac"
  obtain ⟨j, otherInside, otherGap⟩ := numbered_gap right "mac"
  have leases := lease_lines_alike left right same (isStatic (getstr right "static")) dhcpNames leftPlain rightPlain
    (left.entries.length + 1 + right.entries.length) 0
  rw [lease_lines_fuel left _ _ right.entries.length 0 k (by omega) (by omega) gap, fuel_swap left right,
    lease_lines_fuel right _ _ left.entries.length 0 j (by omega) (by omega) otherGap] at leases
  rw [udhcpdLines, udhcpdLines, same.static]
  repeat' refine List.rel_append ?_ ?_
  · exact alike_same _
  · exact range_alike left right same leftPlain rightPlain
  · exact .cons (alike_refl _) (.cons (alike_refl _) (.cons interface (alike_same _)))
  · exact option "opt lease " "time" (by decide) (by decide)
  · exact alike_same _
  · exact option "opt router " "router" (by decide) (by decide)
  · exact alike_same _
  · exact alike_same _
  · exact option "opt dns " "dns1" (by decide) (by decide)
  · exact alike_same _
  · exact option "opt dns " "dns2" (by decide) (by decide)
  · exact alike_same _
  · exact alike_same _
  · exact leases

theorem dhcp_directives_same (creatable : Bool) (conf : Bytes) (leftPlain : OneLine left dhcpNames ["mac", "ip"])
    (rightPlain : OneLine right dhcpNames ["mac", "ip"]) :
    dhcpDirectives creatable conf left = dhcpDirectives creatable conf right := by
  rw [dhcpDirectives, dhcpDirectives, dhcpSet, dhcpSet]
  by_cases blocked : (!creatable) = true
  · rw [if_pos blocked, if_pos blocked]
  · rw [if_neg blocked, if_neg blocked]
    simp only [udhcpdConf, directives_alike _ _ (udhcpd_lines_alike left right same leftPlain rightPlain)]

theorem interface_loop_alike (leftPlain : OneLine left [] ["ifname", "ipaddr", "netmask"])
    (rightPlain : OneLine right [] ["ifname", "ipaddr", "netmask"]) (fuel i : Nat) :
    List.Forall₂ Alike (interfaceLoop left fuel i) (interfaceLoop right fuel i) := by
  induction fuel generalizing i with
  | zero => exact .nil
  | succ fuel ih =>
      rw [interfaceLoop, interfaceLoop]
      rcases same_numbered left right same "ifname" i with ⟨absent, otherAbsent⟩ | ⟨name, otherName, given, otherGiven⟩
      · rw [absent, otherAbsent]
        exact .nil
      · rw [given, otherGiven]
        exact List.rel_append (interface_lines_alike name otherName _ _ _ _
          (leftPlain.numbered "ifname" (by simp) i name given)
            (rightPlain.numbered "ifname" (by simp) i otherName otherGiven)
          (shown_plain _ (leftPlain.numbered "ipaddr" (by simp) i))
            (shown_plain _ (rightPlain.numbered "ipaddr" (by simp) i))
          (shown_plain _ (leftPlain.numbered "netmask" (by simp) i))
            (shown_plain _ (rightPlain.numbered "netmask" (by simp) i)))
          (ih (i + 1))

theorem network_directives_same (creatable : Bool) (conf : Bytes)
    (leftPlain : OneLine left [] ["ifname", "ipaddr", "netmask"])
    (rightPlain : OneLine right [] ["ifname", "ipaddr", "netmask"]) :
    networkDirectives creatable conf left = networkDirectives creatable conf right := by
  obtain ⟨k, inside, gap⟩ := numbered_gap left "ifname"
  obtain ⟨j, otherInside, otherGap⟩ := numbered_gap right "ifname"
  have loops := interface_loop_alike left right same leftPlain rightPlain
    (left.entries.length + 1 + right.entries.length) 0
  rw [interface_loop_fuel left _ right.entries.length 0 k (by omega) (by omega) gap, fuel_swap left right,
    interface_loop_fuel right _ left.entries.length 0 j (by omega) (by omega) otherGap] at loops
  rw [networkDirectives, networkDirectives, networkSet, networkSet]
  by_cases blocked : (!creatable) = true
  · rw [if_pos blocked, if_pos blocked]
  · rw [if_neg blocked, if_neg blocked]
    exact directives_alike _ _ (List.rel_append (alike_same _) loops)

end TwoRequests

-- None of the three handlers looks at what it prints, so a parameter adds no
-- line of its own as long as it holds no newline.
theorem set_directives_same (left right : Request) (same : SameSelectors left right) :
    (∀ device files, OneLine left [] ["sip", "dport"] → OneLine right [] ["sip", "dport"] →
      firewallDirectives device files left = firewallDirectives device files right) ∧
    (∀ creatable conf, OneLine left ["if", "start", "end", "time", "router", "dns1", "dns2"] ["mac", "ip"] →
      OneLine right ["if", "start", "end", "time", "router", "dns1", "dns2"] ["mac", "ip"] →
      dhcpDirectives creatable conf left = dhcpDirectives creatable conf right) ∧
    (∀ creatable conf, OneLine left [] ["ifname", "ipaddr", "netmask"] → OneLine right [] ["ifname", "ipaddr",
    "netmask"] →
      networkDirectives creatable conf left = networkDirectives creatable conf right) :=
  ⟨firewall_directives_same left right same, dhcp_directives_same left right same,
    network_directives_same left right same⟩

theorem forged_selectors (key : String) (old new : Bytes) (rest : List (Bytes × Bytes))
    (selectors : ascii "state" ≠ ascii key ∧ ascii "enable" ≠ ascii key ∧ ascii "static" ≠ ascii key)
    (proto : ∀ i, ascii key ≠ ascii "proto" ++ decimal i)
    (source : cstr old ≠ ascii "0.0.0.0" ∧ cstr new ≠ ascii "0.0.0.0") :
    SameSelectors ⟨(ascii key, old) :: rest⟩ ⟨(ascii key, new) :: rest⟩ := by
  have hit : ∀ text, getData ⟨(ascii key, text) :: rest⟩ (ascii key) = some text := by
    intro text
    simp [getData]
  have other : ∀ name, ascii key ≠ name → ∀ text, getData ⟨(ascii key, text) :: rest⟩ name = getData ⟨rest⟩ name := by
    intro name different text
    simp [getData, different]
  refine ⟨?_, ?_, ?_, ?_, ?_, ?_⟩
  · intro name
    by_cases equal : ascii key = name
    · rw [← equal, hit, hit]
      rfl
    · rw [other name equal, other name equal]
  · rw [getstr, getstr, other _ selectors.1.symm, other _ selectors.1.symm]
  · rw [getstr, getstr, other _ selectors.2.1.symm, other _ selectors.2.1.symm]
  · rw [getstr, getstr, other _ selectors.2.2.symm, other _ selectors.2.2.symm]
  · intro i
    rw [getstrf, getstrf, other _ (proto i), other _ (proto i)]
  · intro i
    by_cases equal : ascii key = ascii "sip" ++ decimal i
    · rw [getstrf, getstrf, ← equal, hit, hit, Option.map_some, Option.map_some, Option.some.injEq, Option.some.injEq]
      exact iff_of_false source.1 source.2
    · rw [getstrf, getstrf, other _ equal, other _ equal]

def forgedRequest (key : String) (text : Bytes) : Request :=
  ⟨[(ascii key, text), (ascii "state", ascii "enabled"), (ascii "proto0", ascii "tcp"), (ascii "dport0", ascii "80"),
    (ascii "enable", ascii "true"), (ascii "static", ascii "false")]⟩

theorem one_line_entries (req : Request) (names stems : List String) (plain : ∀ entry ∈ req.entries,
    (10 : UInt8) ∉ entry.2) :
    OneLine req names stems := by
  have data : ∀ name text, (getData req name).map cstr = some text → (10 : UInt8) ∉ text := by
    intro name text found newline
    obtain ⟨stored, hit, rfl⟩ := Option.map_eq_some_iff.mp found
    obtain ⟨entry, entryHit, rfl⟩ := Option.map_eq_some_iff.mp hit
    exact plain entry (List.mem_of_find?_eq_some entryHit) ((List.takeWhile_prefix _).subset newline)
  exact ⟨fun name _ text found => data _ text found, fun stem _ i text found => data _ text found⟩

theorem set_directives_same_sample :
    firewallDirectives ⟨true, true⟩ ⟨none, none, []⟩ (forgedRequest "sip0" (ascii "10.0.0.7")) =
        firewallDirectives ⟨true, true⟩ ⟨none, none, []⟩ (forgedRequest "sip0" (ascii "COMMIT -A")) ∧
      dhcpDirectives true [] (forgedRequest "if" (ascii "eth0")) =
        dhcpDirectives true [] (forgedRequest "if" (ascii "opt dns")) ∧
      networkDirectives true [] (forgedRequest "ifname0" (ascii "eth0")) =
        networkDirectives true [] (forgedRequest "ifname0" (ascii "\tup /tmp/run")) := by
  refine ⟨?_, ?_, ?_⟩
  · exact (set_directives_same _ _ (forged_selectors "sip0" _ _ _ (by decide) (fun i => nofun) (by decide))).1 _ _
      (one_line_entries _ _ _ (by decide)) (one_line_entries _ _ _ (by decide))
  · exact (set_directives_same _ _ (forged_selectors "if" _ _ _ (by decide) (fun i => nofun) (by decide))).2.1 _ _
      (one_line_entries _ _ _ (by decide)) (one_line_entries _ _ _ (by decide))
  · exact (set_directives_same _ _ (forged_selectors "ifname0" _ _ _ (by decide) (fun i => nofun) (by decide))).2.2 _ _
      (one_line_entries _ _ _ (by decide)) (one_line_entries _ _ _ (by decide))

-- A newline in the first parameter gives each of the three files one line more.
theorem newline_adds_directive :
    (SameSelectors (forgedRequest "sip0" (ascii "10.0.0.7")) (forgedRequest "sip0" (ascii "10.0.0.7\nCOMMIT")) ∧
      firewallDirectives ⟨true, true⟩ ⟨none, none, []⟩ (forgedRequest "sip0" (ascii "10.0.0.7")) ≠
        firewallDirectives ⟨true, true⟩ ⟨none, none, []⟩ (forgedRequest "sip0" (ascii "10.0.0.7\nCOMMIT"))) ∧
    (SameSelectors (forgedRequest "if" (ascii "eth0")) (forgedRequest "if" (ascii "eth0\nnotify_file /tmp/run")) ∧
      dhcpDirectives true [] (forgedRequest "if" (ascii "eth0")) ≠
        dhcpDirectives true [] (forgedRequest "if" (ascii "eth0\nnotify_file /tmp/run"))) ∧
    (SameSelectors (forgedRequest "ifname0" (ascii "eth0")) (forgedRequest "ifname0" (ascii "eth0\n\tup /tmp/run")) ∧
      networkDirectives true [] (forgedRequest "ifname0" (ascii "eth0")) ≠
        networkDirectives true [] (forgedRequest "ifname0" (ascii "eth0\n\tup /tmp/run"))) := by
  refine ⟨⟨?_, by decide +kernel⟩, ⟨?_, by decide +kernel⟩, ⟨?_, by decide +kernel⟩⟩
  · exact forged_selectors "sip0" _ _ _ (by decide) (fun i => nofun) (by decide)
  · exact forged_selectors "if" _ _ _ (by decide) (fun i => nofun) (by decide)
  · exact forged_selectors "ifname0" _ _ _ (by decide) (fun i => nofun) (by decide)

end Ftm50s.Cgi
