import Ftm50s.Udhcpd.Leases

set_option autoImplicit false

namespace Ftm50s.Udhcpd

open Lib.Text Lib.SlotTable

-- server_config, as far as the handling of packets reads it
structure Config where
  startIp : Nat
  endIp : Nat
  serverNip : Nat
  maxLeaseSec : Nat
  minLeaseSec : Nat
  offerTime : Nat
  declineTime : Nat
  conflictTime : Nat
  staticLeases : List (Mac × Nat)
  baseIpOnMac : Bool

def getStaticNipByMac (staticLeases : List (Mac × Nat)) (mac : Mac) : Nat :=
  ((staticLeases.find? fun lease => decide (lease.1 = mac)).map Prod.snd).getD 0

def isNipReserved (staticLeases : List (Mac × Nat)) (nip : Nat) : Bool := staticLeases.any fun lease => lease.2 == nip

structure Packet where
  hlen : Nat
  op : Nat
  messageType : Option Nat
  chaddr : Mac
  ciaddr : Nat
  serverId : Option Nat
  requestedIp : Option Nat
  leaseTime : Option Nat
  hostName : Option Bytes

-- What the server finds while it handles a packet: the clock as it is read on the
-- way, and whether nobody answers an ARP request, for the addresses of the search
-- and for the one that is left at its end
structure Moment where
  asked : Nat
  silent : Nat → Bool
  probed : Nat → Nat
  searched : Nat
  lastSilent : Bool
  lastProbed : Nat
  now : Nat

inductive Reply where
  | offer (yiaddr leaseTime : Nat)
  | ack (yiaddr leaseTime : Nat)
  | nak
  | inform
deriving DecidableEq, Repr

def selectLeaseTime (config : Config) (packet : Packet) : Nat :=
  match packet.leaseTime with
  | none => config.maxLeaseSec
  | some wanted =>
      let lease := if config.maxLeaseSec < wanted then config.maxLeaseSec else wanted
      if lease < config.minLeaseSec then config.minLeaseSec else lease

def nobodyRespondsToArp (config : Config) (silent : Bool) (now nip : Nat) (leases : Table) : Table × Bool :=
  if silent then (leases, true) else ((addLease now none nip config.conflictTime none leases).1, false)

def poolSize (config : Config) : Nat := (config.endIp + 0x100000000 - config.startIp) % 0x100000000 + 1

-- The SDBM hash over the bytes of the hardware address
def macHash (mac : Mac) : Nat :=
  ((List.range 6).foldl
    (fun (hash : BitVec 32) i => hash + (BitVec.extractLsb'
      (8 * (5 - i)) 8 mac).setWidth 32 + (hash <<< 6) + (hash <<< 16) - hash)
    (0 : BitVec 32)).toNat

-- The addresses in the order the loop visits them, each once
def addresses (config : Config) (mac : Mac) : List Nat :=
  let first := if config.baseIpOnMac then macHash mac % poolSize config else 0
  (List.range (poolSize config)).map fun k =>
    if config.baseIpOnMac then config.startIp + (first + k) % poolSize config else (config.startIp + k) % 0x100000000

def usable (config : Config) (addr : Nat) : Bool :=
  addr % 256 != 0 && addr % 256 != 255 && addr != config.serverNip && !isNipReserved config.staticLeases addr

def expiresAt (leases : Table) (i : Nat) : Nat := (leases.getD i emptyLease).expires

-- The loop of find_free_or_expired_nip and what follows it; oldest is a slot, whose
-- lease may change while the loop goes on.
def searchAddresses (config : Config) (moment : Moment) : List Nat → Table → Option Nat → Table × Nat
  | addr :: rest, leases, oldest =>
      if !usable config addr then searchAddresses config moment rest leases oldest
      else
        match leases.findIdx? fun lease => decide (lease.nip = addr) with
        | none =>
            match nobodyRespondsToArp config (moment.silent addr) (moment.probed addr) addr leases with
            | (next, true) => (next, addr)
            | (next, false) => searchAddresses config moment rest next oldest
        | some i =>
            let older := oldest.all fun o => decide (expiresAt leases i < expiresAt leases o)
            searchAddresses config moment rest leases (if older then some i else oldest)
  | [], leases, oldest =>
      match oldest with
      | none => (leases, 0)
      | some o =>
          let lease := leases.getD o emptyLease
          if isExpiredLease moment.searched lease then
            match nobodyRespondsToArp config moment.lastSilent moment.lastProbed lease.nip leases with
            | (next, true) => (next, lease.nip)
            | (next, false) => (next, 0)
          else (leases, 0)

def findFreeOrExpiredNip (config : Config) (moment : Moment) (mac : Mac) (leases : Table) : Table × Nat :=
  searchAddresses config moment (addresses config mac) leases none

-- The pointer lease of udhcpd_main: a slot of the table, or the fake lease of a
-- client with a static address
inductive Found where
  | fake (nip : Nat)
  | slot (i : Nat) (lease : Lease)

def Found.nip : Found → Nat
  | .fake nip => nip
  | .slot _ lease => lease.nip

def lookupLease (config : Config) (mac : Mac) (leases : Table) : Option Found :=
  let static := getStaticNipByMac config.staticLeases mac
  if static ≠ 0 then some (.fake static)
  else (leases.findIdx? fun lease => decide (lease.mac = mac)).map fun i => .slot i (leases.getD i emptyLease)

def chooseAddress (config : Config) (moment : Moment) (packet : Packet) (lease : Option Found) (leases : Table) :
    Table × Nat :=
  match lease with
  | some found => (leases, found.nip)
  | none =>
      match packet.requestedIp with
      | some requested =>
          if config.startIp ≤ requested ∧ requested ≤ config.endIp ∧
              (findLeaseByNip requested leases).all (isExpiredLease moment.asked) then (leases, requested)
          else findFreeOrExpiredNip config moment packet.chaddr leases
      | none => findFreeOrExpiredNip config moment packet.chaddr leases

def sendOffer (config : Config) (moment : Moment) (packet : Packet) (lease : Option Found) (leases : Table) :
    Table × Option Reply :=
  let static := getStaticNipByMac config.staticLeases packet.chaddr
  if static ≠ 0 then (leases, some (.offer static (selectLeaseTime config packet)))
  else
    let (leases, yiaddr) := chooseAddress config moment packet lease leases
    if yiaddr = 0 then (leases, none)
    else
      match addLease moment.now (some packet.chaddr) yiaddr config.offerTime packet.hostName leases with
      | (next, none) => (next, none)
      | (next, some _) => (next, some (.offer yiaddr (selectLeaseTime config packet)))

def sendACK (config : Config) (moment : Moment) (packet : Packet) (yiaddr : Nat) (leases : Table) :
    Table × Option Reply :=
  let leaseTime := selectLeaseTime config packet
  ((addLease moment.now (some packet.chaddr) yiaddr leaseTime packet.hostName leases).1, some (.ack yiaddr leaseTime))

def DHCPDISCOVER : Nat := 1
def DHCPREQUEST : Nat := 3
def DHCPDECLINE : Nat := 4
def DHCPRELEASE : Nat := 7
def DHCPINFORM : Nat := 8

def request (config : Config) (moment : Moment) (packet : Packet) (lease : Option Found) (leases : Table) :
    Table × Option Reply :=
  if packet.requestedIp = none ∧ packet.ciaddr = 0 then (leases, none)
  else
    let requested := packet.requestedIp.getD packet.ciaddr
    if lease.any fun found => found.nip == requested then sendACK config moment packet requested leases
    else if packet.serverId.isSome || packet.requestedIp.isSome then (leases, some .nak)
    else (leases, none)

def decline (config : Config) (moment : Moment) (packet : Packet) (lease : Option Found) (leases : Table) : Table :=
  match packet.serverId, packet.requestedIp, lease with
  | some _, some requested, some (.slot i held) =>
      if requested = held.nip then leases.set i { held with mac := 0, expires :=
        (moment.now + config.declineTime) % 0x100000000 }
      else leases
  | _, _, _ => leases

def release (moment : Moment) (packet : Packet) (lease : Option Found) (leases : Table) : Table :=
  match packet.serverId, lease with
  | some _, some (.slot i held) =>
      if packet.ciaddr = held.nip then leases.set i { held with expires := moment.now } else leases
  | _, _ => leases

-- One packet through the loop of udhcpd_main
def handle (config : Config) (moment : Moment) (packet : Packet) (leases : Table) : Table × Option Reply :=
  if packet.hlen ≠ 6 ∨ packet.op ≠ 1 then (leases, none)
  else
    match packet.messageType with
    | none => (leases, none)
    | some state =>
        if packet.serverId.any (· != config.serverNip) then (leases, none)
        else
          let lease := lookupLease config packet.chaddr leases
          if state = DHCPDISCOVER then sendOffer config moment packet lease leases
          else if state = DHCPREQUEST then request config moment packet lease leases
          else if state = DHCPDECLINE then (decline config moment packet lease leases, none)
          else if state = DHCPRELEASE then (release moment packet lease leases, none)
          else if state = DHCPINFORM then (leases, some .inform)
          else (leases, none)

end Ftm50s.Udhcpd
