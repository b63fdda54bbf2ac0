import Ftm50s.Dhcp.Config
import Ftm50s.Firewall.Table
import Ftm50s.Lib.Counted
import Ftm50s.Network.Config

set_option autoImplicit false

namespace Ftm50s.Cgi

open Lib.Text Lib.Counted

-- A parameter handed to strcmp or to a %s
inductive Call where
  | strcmp (arg : Option Bytes)
  | printed (arg : Option Bytes)
deriving DecidableEq, Repr

def callArg : Call → Option Bytes
  | .strcmp arg => arg
  | .printed arg => arg

def sourceCalls (lpszSIP : Bytes) : List Call :=
  .strcmp (some lpszSIP) :: if lpszSIP ≠ ascii "0.0.0.0" then [.printed (some lpszSIP)] else []

def protoCalls (lpszProto : Bytes) (lpszDPort : Option Bytes) : List Call :=
  if ascii "all" = lpszProto then [.strcmp (some lpszProto), .printed (some lpszProto)]
  else if ascii "icmp" = lpszProto then [.strcmp (some lpszProto), .strcmp (some lpszProto), .printed (some lpszProto)]
  else [.strcmp (some lpszProto), .strcmp (some lpszProto), .printed (some lpszProto), .printed lpszDPort]

-- The turn of the rule loop in netfilter.c: it leaves only when all three are missing.
def ruleTurn (req : Request) (nRules : Nat) : Turn Call Bytes :=
  match getstrf req "sip" nRules, getstrf req "proto" nRules, getstrf req "dport" nRules with
  | none, none, none => .leave
  | none, _, _ => .step [.strcmp none] none
  | some lpszSIP, none, _ => .step (sourceCalls lpszSIP ++ [.strcmp none]) none
  | some lpszSIP, some lpszProto, lpszDPort =>
      .step (sourceCalls lpszSIP ++ protoCalls lpszProto lpszDPort)
        (some (Firewall.ruleLine lpszSIP lpszProto lpszDPort))

-- The turn of the lease loop in dhcp.c: it leaves when either is missing.
def leaseTurn (req : Request) (static : Bool) (i : Nat) : Turn Call Bytes :=
  match getstrf req "mac" i, getstrf req "ip" i with
  | some lpszMAC, some lpszIP =>
      .step [.printed (some (lpszMAC.map Dhcp.toupper)), .printed (some lpszIP)]
        (some (Dhcp.leaseLine static lpszMAC lpszIP))
  | _, _ => .leave

-- The turn of the interface loop in network.c: it looks at the name alone.
def interfaceTurn (req : Request) (i : Nat) : Turn Call (List Bytes) :=
  match getstrf req "ifname" i with
  | none => .leave
  | some lpszIFName =>
      .step [.printed (some lpszIFName), .printed (some lpszIFName), .printed (getstrf req "ipaddr" i),
          .printed (getstrf req "netmask" i)]
        (some (Network.interfaceLines lpszIFName (getstrf req "ipaddr" i) (getstrf req "netmask" i)))

def RuleComplete (req : Request) (i : Nat) : Prop :=
  getstrf req "sip" i ≠ none ∧ getstrf req "proto" i ≠ none ∧ getstrf req "dport" i ≠ none

def LeaseComplete (req : Request) (i : Nat) : Prop := getstrf req "mac" i ≠ none ∧ getstrf req "ip" i ≠ none

def InterfaceComplete (req : Request) (i : Nat) : Prop :=
  getstrf req "ifname" i ≠ none ∧ getstrf req "ipaddr" i ≠ none ∧ getstrf req "netmask" i ≠ none

theorem rule_lines_run (req : Request) (fuel i : Nat) :
    Firewall.ruleLines req fuel i = (run (ruleTurn req) fuel i).bind fun trace => trace.mapM Made.out := by
  induction fuel generalizing i with
  | zero => rfl
  | succ fuel ih =>
      rw [Firewall.ruleLines, run, ruleTurn]
      cases getstrf req "sip" i with
      | none => cases getstrf req "proto" i <;> cases getstrf req "dport" i <;> rfl
      | some lpszSIP =>
          cases getstrf req "proto" i with
          | none => cases getstrf req "dport" i <;> rfl
          | some lpszProto =>
              simp only [ih (i + 1)]
              cases run (ruleTurn req) fuel (i + 1) with
              | none => rfl
              | some rest =>
                  simp only [Option.bind_some, Option.map_some, List.mapM_cons]
                  cases rest.mapM Made.out <;> rfl

theorem lease_lines_run (req : Request) (static : Bool) (fuel i : Nat) (trace : List (Made Call Bytes))
    (ran : run (leaseTurn req static) fuel i = some trace) :
    Dhcp.leaseLines req static fuel i = trace.filterMap Made.out := by
  induction fuel generalizing i trace with
  | zero => cases ran
  | succ fuel ih =>
      rw [run, leaseTurn] at ran
      rw [Dhcp.leaseLines]
      cases mac : getstrf req "mac" i with
      | none =>
          rw [mac] at ran
          obtain rfl := Option.some.inj ran
          rfl
      | some lpszMAC =>
          cases ip : getstrf req "ip" i with
          | none =>
              rw [mac, ip] at ran
              obtain rfl := Option.some.inj ran
              rfl
          | some lpszIP =>
              rw [mac, ip] at ran
              obtain ⟨rest, later, rfl⟩ := Option.map_eq_some_iff.mp ran
              simp only [ih (i + 1) rest later, List.filterMap_cons]

theorem interface_loop_run (req : Request) (fuel i : Nat) (trace : List (Made Call (List Bytes)))
    (ran : run (interfaceTurn req) fuel i = some trace) :
    Network.interfaceLoop req fuel i = (trace.filterMap Made.out).flatten := by
  induction fuel generalizing i trace with
  | zero => cases ran
  | succ fuel ih =>
      rw [run, interfaceTurn] at ran
      rw [Network.interfaceLoop]
      cases name : getstrf req "ifname" i with
      | none =>
          rw [name] at ran
          obtain rfl := Option.some.inj ran
          rfl
      | some lpszIFName =>
          rw [name] at ran
          obtain ⟨rest, later, rfl⟩ := Option.map_eq_some_iff.mp ran
          simp only [ih (i + 1) rest later, List.filterMap_cons, List.flatten_cons]

-- The loop ends, no call is given a NULL, and what is written comes from whole entries.
def UsesWhole {β : Type} (req : Request) (turn : Nat → Turn Call β) (complete : Nat → Prop) : Prop :=
  ∃ trace, run turn (req.entries.length + 1) 0 = some trace ∧
    (∀ made ∈ trace, ∀ call ∈ made.calls, callArg call ≠ none) ∧
    ∀ made ∈ trace, made.out ≠ none → complete made.index

theorem uses_whole_iff {β : Type} (req : Request) (turn : Nat → Turn Call β) (complete : Nat → Prop)
    (ends : ∃ k, k ≤ req.entries.length ∧ ¬ GoesOn (turn k)) (ongoing : ∀ j, complete j → GoesOn (turn j))
    (sound : ∀ j calls out, turn j = .step calls out →
      ((∀ call ∈ calls, callArg call ≠ none) ∧ (out ≠ none → complete j) ↔ complete j)) :
    UsesWhole req turn complete ↔ ∀ j, (∀ m, m ≤ j → turn m ≠ .leave) → complete j := by
  obtain ⟨k, inside, stop⟩ := ends
  obtain ⟨trace, ran⟩ := run_ends turn (req.entries.length + 1) 0 k (by omega) (by omega) stop
  rw [← made_all_iff turn complete ongoing]
  have members := run_mem turn _ 0 trace ran
  constructor
  · rintro ⟨other, again, given, written⟩ j reached stays
    obtain rfl : other = trace := Option.some.inj (again.symm.trans ran)
    cases here : turn j with
    | leave => exact absurd here stays
    | step calls out =>
        have member : (⟨j, calls, out⟩ : Made Call β) ∈ other := (members _).mpr ⟨reached, here⟩
        exact (sound j calls out here).mp ⟨given _ member, written _ member⟩
  · intro each
    have turns : ∀ made ∈ trace, (∀ call ∈ made.calls, callArg call ≠ none) ∧
      (made.out ≠ none → complete made.index) := by
      intro made member
      obtain ⟨reached, here⟩ := (members made).mp member
      refine (sound made.index made.calls made.out here).mpr (each made.index reached ?_)
      rw [here]
      exact nofun
    exact ⟨trace, ran, fun made member => (turns made member).1, fun made member => (turns made member).2⟩

theorem source_calls_given (lpszSIP : Bytes) : ∀ call ∈ sourceCalls lpszSIP, callArg call ≠ none := by
  intro call member
  rw [sourceCalls] at member
  split at member
  · rcases List.mem_pair.mp member with rfl | rfl <;> exact nofun
  · rw [List.mem_singleton.mp member]
    exact nofun

theorem proto_calls_given (lpszProto lpszDPort : Bytes) :
    ∀ call ∈ protoCalls lpszProto (some lpszDPort), callArg call ≠ none := by
  intro call member absent
  have given : callArg call = some lpszProto ∨ callArg call = some lpszDPort := by
    simp only [protoCalls] at member
    split at member
    · rcases List.mem_pair.mp member with rfl | rfl <;> exact Or.inl rfl
    · split at member
      · simp only [List.mem_cons, List.not_mem_nil, or_false] at member
        rcases member with rfl | rfl | rfl <;> exact Or.inl rfl
      · simp only [List.mem_cons, List.not_mem_nil, or_false] at member
        rcases member with rfl | rfl | rfl | rfl
        · exact Or.inl rfl
        · exact Or.inl rfl
        · exact Or.inl rfl
        · exact Or.inr rfl
  rw [absent] at given
  rcases given with wrong | wrong <;> cases wrong

theorem rule_turn_leaves (req : Request) (i : Nat) : ruleTurn req i = .leave ↔
    getstrf req "sip" i = none ∧ getstrf req "proto" i = none ∧ getstrf req "dport" i = none := by
  rw [ruleTurn]
  cases getstrf req "sip" i <;> cases getstrf req "proto" i <;> cases getstrf req "dport" i <;> simp

theorem rule_turn_ongoing (req : Request) (i : Nat) (complete : RuleComplete req i) : GoesOn (ruleTurn req i) := by
  obtain ⟨sip, proto, _⟩ := complete
  obtain ⟨lpszSIP, sip⟩ := Option.ne_none_iff_exists'.mp sip
  obtain ⟨lpszProto, proto⟩ := Option.ne_none_iff_exists'.mp proto
  rw [ruleTurn, sip, proto]
  trivial

theorem rule_turn_sound (req : Request) (i : Nat) (calls : List Call) (out : Option Bytes)
    (turned : ruleTurn req i = .step calls out) :
    (∀ call ∈ calls, callArg call ≠ none) ∧ (out ≠ none → RuleComplete req i) ↔ RuleComplete req i := by
  rw [ruleTurn] at turned
  cases sip : getstrf req "sip" i with
  | none =>
      have incomplete : ¬ RuleComplete req i := fun complete => complete.1 sip
      have missing : Call.strcmp none ∈ calls := by
        rw [sip] at turned
        cases proto : getstrf req "proto" i <;> cases dport : getstrf req "dport" i <;> rw [proto, dport] at turned <;>
          cases turned <;> exact List.mem_singleton_self _
      exact ⟨fun given => absurd rfl (given.1 _ missing), fun complete => absurd complete incomplete⟩
  | some lpszSIP =>
      cases proto : getstrf req "proto" i with
      | none =>
          have incomplete : ¬ RuleComplete req i := fun complete => complete.2.1 proto
          rw [sip, proto] at turned
          obtain ⟨rfl, -⟩ := Turn.step.inj turned
          have missing : Call.strcmp none ∈ sourceCalls lpszSIP ++ [.strcmp none] := by simp
          exact ⟨fun given => absurd rfl (given.1 _ missing), fun complete => absurd complete incomplete⟩
      | some lpszProto =>
          rw [sip, proto] at turned
          obtain ⟨rfl, rfl⟩ := Turn.step.inj turned
          constructor
          · exact fun given => given.2 nofun
          · intro complete
            obtain ⟨lpszDPort, dport⟩ := Option.ne_none_iff_exists'.mp complete.2.2
            refine ⟨?_, fun _ => complete⟩
            rw [dport]
            intro call member
            rcases List.mem_append.mp member with source | rest
            · exact source_calls_given lpszSIP call source
            · exact proto_calls_given lpszProto lpszDPort call rest

theorem rule_loop_ends (req : Request) : ∃ k, k ≤ req.entries.length ∧ ¬ GoesOn (ruleTurn req k) := by
  obtain ⟨k, inside, gap⟩ := numbered_gap req "sip"
  refine ⟨k, inside, ?_⟩
  rw [ruleTurn, gap]
  cases getstrf req "proto" k <;> cases getstrf req "dport" k <;> exact id

theorem rule_loop_iff (req : Request) : UsesWhole req (ruleTurn req) (RuleComplete req) ↔
    ∀ i, (∀ j, j ≤ i → ¬ (getstrf req "sip" j = none ∧ getstrf req "proto" j = none ∧ getstrf req "dport" j = none)) →
      RuleComplete req i := by
  rw [uses_whole_iff req (ruleTurn req) (RuleComplete req) (rule_loop_ends req) (rule_turn_ongoing req)
    (rule_turn_sound req)]
  simp only [Ne, rule_turn_leaves]

theorem lease_turn_leaves (req : Request) (static : Bool) (i : Nat) :
    leaseTurn req static i = .leave ↔ getstrf req "mac" i = none ∨ getstrf req "ip" i = none := by
  rw [leaseTurn]
  cases getstrf req "mac" i <;> cases getstrf req "ip" i <;> simp

theorem lease_loop_whole (req : Request) (static : Bool) :
    UsesWhole req (leaseTurn req static) (LeaseComplete req) := by
  have complete_iff : ∀ i, leaseTurn req static i ≠ .leave ↔ LeaseComplete req i := by
    intro i
    rw [Ne, lease_turn_leaves, not_or, LeaseComplete]
  have turned : ∀ i, LeaseComplete req i → ∃ mac ip, getstrf req "mac" i = some mac ∧ getstrf req "ip" i = some ip := by
    intro i complete
    obtain ⟨mac, found⟩ := Option.ne_none_iff_exists'.mp complete.1
    obtain ⟨ip, given⟩ := Option.ne_none_iff_exists'.mp complete.2
    exact ⟨mac, ip, found, given⟩
  apply (uses_whole_iff req (leaseTurn req static) (LeaseComplete req) ?_ ?_ ?_).mpr
  · exact fun j present => (complete_iff j).mp (present j (Nat.le_refl j))
  · obtain ⟨k, inside, gap⟩ := numbered_gap req "mac"
    refine ⟨k, inside, ?_⟩
    rw [leaseTurn, gap]
    exact id
  · intro j complete
    obtain ⟨mac, ip, found, given⟩ := turned j complete
    rw [leaseTurn, found, given]
    trivial
  · intro j calls out here
    have complete : LeaseComplete req j := by
      apply (complete_iff j).mp
      rw [here]
      exact nofun
    obtain ⟨mac, ip, found, given⟩ := turned j complete
    rw [leaseTurn, found, given] at here
    obtain ⟨rfl, rfl⟩ := Turn.step.inj here
    refine ⟨fun _ => complete, fun _ => ⟨?_, fun _ => complete⟩⟩
    intro call member
    rcases List.mem_pair.mp member with rfl | rfl <;> exact nofun

theorem interface_turn_leaves (req : Request) (i : Nat) :
    interfaceTurn req i = .leave ↔ getstrf req "ifname" i = none := by
  rw [interfaceTurn]
  cases getstrf req "ifname" i <;> simp

theorem interface_loop_iff (req : Request) : UsesWhole req (interfaceTurn req) (InterfaceComplete req) ↔
    ∀ i, (∀ j, j ≤ i → getstrf req "ifname" j ≠ none) → getstrf req "ipaddr" i ≠ none ∧
    getstrf req "netmask" i ≠ none := by
  rw [uses_whole_iff req (interfaceTurn req) (InterfaceComplete req)]
  · constructor
    · intro each i named
      exact (each i fun m within left => named m within ((interface_turn_leaves req m).mp left)).2
    · intro each j stays
      have named : ∀ m, m ≤ j → getstrf req "ifname" m ≠ none := fun m within absent =>
        stays m within ((interface_turn_leaves req m).mpr absent)
      exact ⟨named j (Nat.le_refl j), each j named⟩
  · obtain ⟨k, inside, gap⟩ := numbered_gap req "ifname"
    refine ⟨k, inside, ?_⟩
    rw [(interface_turn_leaves req k).mpr gap]
    exact id
  · intro j complete
    obtain ⟨name, found⟩ := Option.ne_none_iff_exists'.mp complete.1
    rw [interfaceTurn, found]
    trivial
  · intro j calls out here
    cases name : getstrf req "ifname" j with
    | none =>
        rw [interfaceTurn, name] at here
        cases here
    | some lpszIFName =>
        rw [interfaceTurn, name] at here
        obtain ⟨rfl, rfl⟩ := Turn.step.inj here
        constructor
        · exact fun given => given.2 nofun
        · rintro ⟨named, address, mask⟩
          refine ⟨?_, fun _ => ⟨named, address, mask⟩⟩
          intro call member
          simp only [List.mem_cons, List.not_mem_nil, or_false] at member
          rcases member with rfl | rfl | rfl | rfl
          · exact nofun
          · exact nofun
          · exact address
          · exact mask

-- The firewall loop stops only where sip, proto and dport are all missing and the
-- network loop where the name is; the lease loop stops as soon as a half is.
theorem whole_entries_iff (firewall dhcp network : Request) :
    (UsesWhole firewall (ruleTurn firewall) (RuleComplete firewall) ↔
      ∀ i, (∀ j, j ≤ i → ¬ (getstrf firewall "sip" j = none ∧ getstrf firewall "proto" j = none ∧
        getstrf firewall "dport" j = none)) → RuleComplete firewall i) ∧
    UsesWhole dhcp (leaseTurn dhcp (Dhcp.isStatic (getstr dhcp "static"))) (LeaseComplete dhcp) ∧
    (UsesWhole network (interfaceTurn network) (InterfaceComplete network) ↔
      ∀ i, (∀ j, j ≤ i → getstrf network "ifname" j ≠ none) →
        getstrf network "ipaddr" i ≠ none ∧ getstrf network "netmask" i ≠ none) :=
  ⟨rule_loop_iff firewall, lease_loop_whole dhcp _, interface_loop_iff network⟩

def portless : Request :=
  ⟨[(ascii "sip0", ascii "10.0.0.1"), (ascii "proto0", ascii "tcp")]⟩

def addressless : Request :=
  ⟨[(ascii "ifname0", ascii "eth0"), (ascii "ipaddr0", ascii "10.0.0.1")]⟩

theorem incomplete_entries_used :
    ¬ UsesWhole portless (ruleTurn portless) (RuleComplete portless) ∧
      Firewall.ruleLines portless 3 0 = some [ascii "-A INPUT \t-s 10.0.0.1\t-p tcp --dport (null)\t-j DROP"] ∧
      ¬ UsesWhole addressless (interfaceTurn addressless) (InterfaceComplete addressless) ∧
      ascii "\tnetmask (null)" ∈ Network.interfaceLoop addressless 3 0 := by
  refine ⟨?_, by decide, ?_, by decide⟩
  · rw [rule_loop_iff]
    intro each
    refine (each 0 ?_).2.2 (by decide)
    intro j zero
    rw [Nat.le_zero.mp zero]
    decide
  · rw [interface_loop_iff]
    intro each
    refine (each 0 ?_).2 (by decide)
    intro j zero
    rw [Nat.le_zero.mp zero]
    decide

end Ftm50s.Cgi
