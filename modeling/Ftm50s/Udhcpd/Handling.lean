import Ftm50s.Udhcpd.Invariant

set_option autoImplicit false

namespace Ftm50s.Udhcpd

open Lib.Text Lib.SlotTable

variable (config : Config)

theorem sound_set (leases : Table) (i : Nat) (held next : Lease) (sound : Sound config leases)
    (read : leases[i]? = some held) (address : next.nip = held.nip) (client : next.mac = held.mac ∨ next.mac = 0)
      (name : next.hostname = held.hostname) (soon : next.expires < 0x80000000) : Sound config (leases.set i next) := by
  have member := List.mem_of_getElem? read
  have each : ∀ lease ∈ leases.set i next, lease ∈ leases ∨ lease = next := fun lease => List.mem_or_eq_of_mem_set
  constructor
  · apply unique_set macKey leases i next sound.macs
    intro mac hit j lease slot same
    obtain ⟨given, nonzero⟩ := (mac_key _ _).mp hit
    have kept : held.mac = mac := by
      rcases client with same | none
      · exact same.symm.trans given
      · exact absurd (given.symm.trans none) nonzero
    exact sound.macs j i lease held mac slot read same ((mac_key _ _).mpr ⟨kept, nonzero⟩)
  · apply unique_set nipKey leases i next sound.nips
    intro nip hit j lease slot same
    obtain ⟨given, nonzero⟩ := (nip_key _ _).mp hit
    exact sound.nips j i lease held nip slot read same ((nip_key _ _).mpr ⟨address.symm.trans given, nonzero⟩)
  · intro lease inside
    rcases each lease inside with old | rfl
    · exact sound.storable lease old
    · have before := sound.storable held member
      exact ⟨by omega, by rw [address]; exact before.nip, by rw [name]; exact before.hostname⟩
  · intro lease inside
    rcases each lease inside with old | rfl
    · exact sound.bound lease old
    · exact soon
  · intro lease inside real dynamic
    rcases each lease inside with old | rfl
    · exact sound.pool lease old real dynamic
    · rcases client with same | none
      · rw [address]
        rw [same] at real dynamic
        exact sound.pool held member real dynamic
      · exact absurd none real

theorem set_keeps (leases : Table) (i : Nat) (held next lease : Lease) (read : leases[i]? = some held)
    (member : lease ∈ leases) (other : lease.mac ≠ held.mac) : lease ∈ leases.set i next := by
  obtain ⟨j, slot⟩ := List.getElem?_of_mem member
  have apart : i ≠ j := by
    rintro rfl
    obtain rfl := Option.some.inj (read.symm.trans slot)
    exact other rfl
  exact List.mem_of_getElem? ((List.getElem?_set_ne apart).trans slot)

theorem lookup_cases (mac : Mac) (leases : Table) :
    (getStaticNipByMac config.staticLeases mac ≠ 0 ∧
        lookupLease config mac leases = some (.fake (getStaticNipByMac config.staticLeases mac))) ∨
      (getStaticNipByMac config.staticLeases mac = 0 ∧
        ((lookupLease config mac leases = none ∧ ∀ lease ∈ leases, lease.mac ≠ mac) ∨
          ∃ i held, leases[i]? = some held ∧ held.mac = mac ∧ lookupLease config mac leases =
          some (.slot i held))) := by
  by_cases static : getStaticNipByMac config.staticLeases mac = 0
  · refine Or.inr ⟨static, ?_⟩
    cases place : leases.findIdx? fun lease => decide (lease.mac = mac) with
    | none =>
        refine Or.inl ⟨?_, by simpa using List.findIdx?_eq_none_iff.mp place⟩
        simp only [lookupLease, static, place, ne_eq, not_true_eq_false, if_false, Option.map_none]
    | some i =>
        obtain ⟨inside, same, _⟩ := List.findIdx?_eq_some_iff_getElem.mp place
        have read : leases[i]? = some leases[i] := List.getElem?_eq_getElem inside
        refine Or.inr ⟨i, leases[i], read, of_decide_eq_true same, ?_⟩
        have slot : leases.getD i emptyLease = leases[i] := by rw [List.getD_eq_getElem?_getD, read, Option.getD_some]
        simp only [lookupLease, static, place, slot, ne_eq, not_true_eq_false, if_false, Option.map_some]
  · refine Or.inl ⟨static, ?_⟩
    simp only [lookupLease, ne_eq, static, not_false_eq_true, if_true]

-- An address that a server has promised to a client, and until when
structure Promise where
  nip : Nat
  deadline : Nat
deriving DecidableEq, Repr

def granted (moment : Moment) : Reply → Option Promise
  | .offer yiaddr _ => some ⟨yiaddr, moment.now + config.offerTime⟩
  | .ack yiaddr leaseTime => some ⟨yiaddr, moment.now + leaseTime⟩
  | .nak => none
  | .inform => none

-- The table stands by the promise, unless the address is reserved for another client.
def Covers (leases : Table) (mac : Mac) (promise : Promise) : Prop :=
  (getStaticNipByMac config.staticLeases mac ≠ 0 ∧ promise.nip = getStaticNipByMac config.staticLeases mac) ∨
    (getStaticNipByMac config.staticLeases mac = 0 ∧
      (isNipReserved config.staticLeases promise.nip = true ∨
        ∃ lease ∈ leases, lease.mac = mac ∧ lease.nip = promise.nip ∧ lease.expires = promise.deadline))

def givesUp (packet : Packet) : Bool :=
  packet.messageType == some DHCPDISCOVER || packet.messageType == some DHCPDECLINE ||
    packet.messageType == some DHCPRELEASE

-- What one packet does to the table and to the promises
structure Handled (moment : Moment) (packet : Packet) (leases : Table) (result : Table × Option Reply) : Prop where
  sound : Sound config result.1
  keeps : ∀ lease ∈ leases, lease.mac ≠ packet.chaddr → isNipReserved config.staticLeases lease.nip = false →
    moment.now ≤ lease.expires → lease ∈ result.1
  own : packet.chaddr ≠ 0 → ∀ promise, result.2.bind (granted config moment) = some promise →
    Covers config result.1 packet.chaddr promise
  still : result.2.bind (granted config moment) = none → givesUp packet = false → result.1 = leases

theorem handled_same (moment : Moment) (packet : Packet) (leases : Table) (reply : Option Reply)
    (sound : Sound config leases) (silent : reply.bind (granted config moment) = none) :
    Handled config moment packet leases (leases, reply) := by
  constructor
  · exact sound
  · exact fun _ member _ _ _ => member
  · intro _ promise given
    rw [silent] at given
    cases given
  · exact fun _ _ => rfl

section Steps

variable (moment : Moment) (clock : Nat) (packet : Packet)

-- An address that is about to be given to the client of the packet
structure Chosen (leases : Table) (result : Table × Nat) : Prop where
  sound : Sound config result.1
  keeps : Keeps moment.now leases result.1
  address : result.2 < 0x100000000
  pool : packet.chaddr ≠ 0 → result.2 ≠ 0 → InPool config result.2
  free : result.2 ≠ 0 → ∀ lease ∈ result.1, lease.nip = result.2 → lease.mac ≠ packet.chaddr →
  lease.expires < moment.now

theorem search_chosen (sane : Sane config) (punctual : Punctual config clock moment) (leases : Table)
    (sound : Sound config leases) :
    Chosen config moment packet leases (findFreeOrExpiredNip config moment packet.chaddr leases) := by
  have found := search_spec config moment clock sane punctual (addresses config packet.chaddr) leases none sound
    (addresses_pool config sane packet.chaddr) (fun o absent => absurd absent (by simp))
  rw [findFreeOrExpiredNip]
  have last := sane.last
  constructor
  · exact found.sound
  · exact found.keeps
  · rcases found.chosen with zero | ⟨pool, _, _⟩
    · omega
    · have := pool.2
      omega
  · intro _ nonzero
    exact (found.chosen.resolve_left nonzero).1
  · intro nonzero lease member same _
    exact (found.chosen.resolve_left nonzero).2.2 lease member same

theorem choose_chosen (sane : Sane config) (punctual : Punctual config clock moment) (leases : Table)
    (sound : Sound config leases) (dynamic : getStaticNipByMac config.staticLeases packet.chaddr = 0) :
    Chosen config moment packet leases (chooseAddress config moment packet
      (lookupLease config packet.chaddr leases) leases) := by
  have search := search_chosen config moment clock packet sane punctual leases sound
  rcases lookup_cases config packet.chaddr leases with ⟨static, _⟩ | ⟨_, ⟨found, _⟩ | ⟨i, held, read, client, found⟩⟩
  · exact absurd dynamic static
  · rw [found, chooseAddress]
    cases asked : packet.requestedIp with
    | none => exact search
    | some requested =>
        dsimp only
        split
        · rename_i fits
          have last := sane.last
          have first := sane.first
          refine ⟨sound, keeps_refl _ _, by dsimp only; omega, fun _ _ => ⟨fits.1, fits.2.1⟩, ?_⟩
          intro nonzero lease member same _
          have address : requested ≠ 0 := nonzero
          cases holder : findLeaseByNip requested leases with
          | none => exact absurd same (by simpa using List.find?_eq_none.mp holder lease member)
          | some other =>
              have expired := fits.2.2
              rw [holder, Option.all_some] at expired
              have hit : other.nip = requested := by simpa using List.find?_some holder
              obtain rfl := same_lease nipKey leases sound.nips lease other _ member (List.mem_of_find?_eq_some holder)
                ((nip_key _ _).mpr ⟨same, address⟩) ((nip_key _ _).mpr ⟨hit, address⟩)
              have before : lease.expires < moment.asked := of_decide_eq_true expired
              have := punctual.asked.2
              omega
        · exact search
  · rw [found, chooseAddress]
    have member := List.mem_of_getElem? read
    refine ⟨sound, keeps_refl _ _, (sound.storable held member).nip, ?_, ?_⟩
    · intro real _
      exact sound.pool held member (by rwa [client]) (by rwa [client])
    · intro nonzero lease inside same other
      obtain rfl := same_lease nipKey leases sound.nips lease held _ inside member
        ((nip_key _ _).mpr ⟨same, nonzero⟩) ((nip_key _ _).mpr ⟨rfl, nonzero⟩)
      exact absurd client other

section Grant

variable (yiaddr leasetime : Nat) (leases : Table)

theorem grant_sound (sound : Sound config leases) (address : yiaddr < 0x100000000)
    (soon : moment.now + leasetime < 0x80000000) (pool : packet.chaddr ≠ 0 →
    getStaticNipByMac config.staticLeases packet.chaddr = 0 → InPool config yiaddr) :
    Sound config (addLease moment.now (some packet.chaddr) yiaddr leasetime packet.hostName leases).1 := by
  apply sound_add config _ _ _ _ _ _ sound address soon
  intro mac given
  obtain rfl := Option.some.inj given
  exact pool

theorem grant_keeps (lease : Lease) (member : lease ∈ leases) (other : lease.mac ≠ packet.chaddr)
    (live : moment.now ≤ lease.expires) (free : lease.nip = yiaddr → yiaddr ≠ 0 → lease.expires < moment.now) :
    lease ∈ (addLease moment.now (some packet.chaddr) yiaddr leasetime packet.hostName leases).1 := by
  obtain ⟨i, read⟩ := List.getElem?_of_mem member
  have apart : matchesLease (some packet.chaddr) yiaddr lease = false := by
    rw [Bool.eq_false_iff]
    intro hit
    rcases (matches_lease _ _ _).mp hit with same | ⟨nonzero, same⟩
    · exact other (Option.some.inj same).symm
    · have := free same nonzero
      omega
  exact List.mem_of_getElem? (add_lease_kept _ _ _ _ _ leases i lease read apart live)

theorem grant_covers (soon : moment.now + leasetime < 0x80000000)
    (dynamic : getStaticNipByMac config.staticLeases packet.chaddr = 0) (i : Nat)
    (taken : (addLease moment.now (some packet.chaddr) yiaddr leasetime packet.hostName leases).2 = some i) :
    Covers config (addLease moment.now (some packet.chaddr) yiaddr leasetime packet.hostName leases).1 packet.chaddr
      ⟨yiaddr, moment.now + leasetime⟩ := by
  have slot := add_lease_stored moment.now (some packet.chaddr) yiaddr leasetime packet.hostName leases i taken
  refine Or.inr ⟨dynamic, Or.inr ⟨_, List.mem_of_getElem? slot, rfl, rfl, ?_⟩⟩
  exact Nat.mod_eq_of_lt (by omega)

end Grant

theorem offer_time_soon (punctual : Punctual config clock moment) : moment.now + config.offerTime < 0x80000000 := by
  have := punctual.soon
  have : config.offerTime ≤ longest config := by rw [longest]; omega
  omega

theorem lease_time_soon (punctual : Punctual config clock moment) :
    moment.now + selectLeaseTime config packet < 0x80000000 := by
  have := punctual.soon
  have := select_lease_time config packet
  omega

theorem offer_handled (sane : Sane config) (punctual : Punctual config clock moment) (leases : Table)
    (sound : Sound config leases) (discover : givesUp packet = true) :
    Handled config moment packet leases (sendOffer config moment packet
      (lookupLease config packet.chaddr leases) leases) := by
  have gone : ∀ table : Table, givesUp packet = false → table = leases := by
    intro table stays
    rw [discover] at stays
    cases stays
  rw [sendOffer]
  by_cases dynamic : getStaticNipByMac config.staticLeases packet.chaddr = 0
  · have chosen := choose_chosen config moment clock packet sane punctual leases sound dynamic
    simp only [dynamic, ne_eq, not_true_eq_false, if_false]
    generalize chooseAddress config moment packet (lookupLease config packet.chaddr leases) leases = choice at chosen ⊢
    obtain ⟨middle, yiaddr⟩ := choice
    have kept : ∀ lease ∈ leases, moment.now ≤ lease.expires → lease ∈ middle := chosen.keeps
    dsimp only
    by_cases zero : yiaddr = 0
    · rw [if_pos zero]
      refine ⟨chosen.sound, fun lease member _ _ live => kept lease member live, ?_, fun _ => gone _⟩
      intro _ promise given
      cases given
    · rw [if_neg zero]
      have soon := offer_time_soon config moment clock punctual
      have after := grant_sound config moment packet yiaddr config.offerTime middle chosen.sound chosen.address soon
        fun real _ => chosen.pool real zero
      have stays : ∀ lease ∈ leases, lease.mac ≠ packet.chaddr → moment.now ≤ lease.expires →
          lease ∈ (addLease moment.now (some packet.chaddr) yiaddr config.offerTime packet.hostName middle).1 := by
        intro lease member other live
        have inside := kept lease member live
        exact grant_keeps moment packet yiaddr config.offerTime middle lease inside other live
          fun same _ => chosen.free zero lease inside same other
      have covers := grant_covers config moment packet yiaddr config.offerTime middle soon dynamic
      generalize addLease moment.now (some packet.chaddr) yiaddr config.offerTime packet.hostName middle =
        result at after stays covers ⊢
      obtain ⟨next, taken⟩ := result
      cases taken with
      | none =>
          refine ⟨after, fun lease member other _ live => stays lease member other live, ?_, fun _ => gone _⟩
          intro _ promise given
          cases given
      | some i =>
          refine ⟨after, fun lease member other _ live => stays lease member other live, ?_, fun _ => gone _⟩
          intro _ promise given
          obtain rfl := Option.some.inj given
          exact covers i rfl
  · simp only [ne_eq, dynamic, not_false_eq_true, if_true]
    refine ⟨sound, fun _ member _ _ _ => member, ?_, fun _ => gone _⟩
    intro _ promise given
    obtain rfl := Option.some.inj given
    exact Or.inl ⟨dynamic, rfl⟩

theorem ack_handled (sane : Sane config) (punctual : Punctual config clock moment) (leases : Table)
    (sound : Sound config leases) (found : Found) (lookup : lookupLease config packet.chaddr leases = some found) :
    Handled config moment packet leases (sendACK config moment packet found.nip leases) := by
  have soon := lease_time_soon config moment clock packet punctual
  have positive : 0 < moment.now := by
    have := punctual.positive
    have := punctual.asked
    omega
  rw [sendACK]
  rcases lookup_cases config packet.chaddr leases with ⟨static, given⟩ | ⟨dynamic, ⟨given, _⟩ | ⟨i, held, read, client,
    given⟩⟩
  · obtain rfl := Option.some.inj (lookup.symm.trans given)
    obtain ⟨reserved, entry, member, address⟩ := static_reserved config packet.chaddr static
    refine ⟨?_, ?_, ?_, ?_⟩
    · apply grant_sound config moment packet _ _ leases sound _ soon
      · exact fun _ dynamic => absurd dynamic static
      · exact address ▸ sane.statics entry member
    · intro lease inside other unreserved live
      apply grant_keeps moment packet _ _ leases lease inside other live
      intro same _
      rw [same] at unreserved
      exact absurd (unreserved.symm.trans reserved) (by decide)
    · intro _ promise granted
      obtain rfl := Option.some.inj granted
      exact Or.inl ⟨static, rfl⟩
    · intro absent
      cases absent
  · cases lookup.symm.trans given
  · obtain rfl := Option.some.inj (lookup.symm.trans given)
    have member := List.mem_of_getElem? read
    refine ⟨?_, ?_, ?_, ?_⟩
    · apply grant_sound config moment packet _ _ leases sound (sound.storable held member).nip soon
      intro real _
      exact sound.pool held member (by rwa [client]) (by rwa [client])
    · intro lease inside other _ live
      apply grant_keeps moment packet _ _ leases lease inside other live
      intro same nonzero
      obtain rfl := same_lease nipKey leases sound.nips lease held _ inside member
        ((nip_key _ _).mpr ⟨same, nonzero⟩) ((nip_key _ _).mpr ⟨rfl, nonzero⟩)
      exact absurd client other
    · intro _ promise granted
      obtain rfl := Option.some.inj granted
      have room : matchesLease (some packet.chaddr) held.nip held = true :=
        (matches_lease _ _ _).mpr (Or.inl (by rw [client]))
      obtain ⟨k, taken⟩ := Option.ne_none_iff_exists'.mp (add_lease_taken moment.now (some packet.chaddr) held.nip
        (selectLeaseTime config packet) packet.hostName leases held member positive (Or.inl room))
      exact grant_covers config moment packet _ _ leases soon dynamic k taken
    · intro absent
      cases absent

theorem request_handled (sane : Sane config) (punctual : Punctual config clock moment) (leases : Table)
    (sound : Sound config leases) :
    Handled config moment packet leases (request config moment packet
      (lookupLease config packet.chaddr leases) leases) := by
  have same := fun reply => handled_same config moment packet leases reply sound
  rw [request]
  split
  · exact same none rfl
  · cases lookup : lookupLease config packet.chaddr leases with
    | none =>
        simp only [Option.any_none, Bool.false_eq_true, if_false]
        split
        · exact same (some .nak) rfl
        · exact same none rfl
    | some found =>
        simp only [Option.any_some]
        by_cases held : found.nip = packet.requestedIp.getD packet.ciaddr
        · rw [if_pos (by simpa using held), ← held]
          exact ack_handled config moment clock packet sane punctual leases sound found lookup
        · rw [if_neg (by simpa using held)]
          split
          · exact same (some .nak) rfl
          · exact same none rfl

theorem slot_handled (leases : Table) (sound : Sound config leases) (i : Nat) (held next : Lease)
    (read : leases[i]? = some held) (client : held.mac = packet.chaddr) (address : next.nip = held.nip)
      (owner : next.mac = held.mac ∨ next.mac = 0) (name : next.hostname = held.hostname)
        (soon : next.expires < 0x80000000) (leaving : givesUp packet = true) :
    Handled config moment packet leases (leases.set i next, none) := by
  constructor
  · exact sound_set config leases i held next sound read address owner name soon
  · intro lease member other _ _
    exact set_keeps leases i held next lease read member (by rwa [client])
  · intro _ promise given
    cases given
  · intro _ stays
    rw [leaving] at stays
    cases stays

theorem decline_handled (punctual : Punctual config clock moment) (leases : Table) (sound : Sound config leases)
    (leaving : givesUp packet = true) :
    Handled config moment packet leases (decline config moment packet (lookupLease config packet.chaddr leases) leases,
    none) := by
  have same := handled_same config moment packet leases none sound rfl
  rcases lookup_cases config packet.chaddr leases with ⟨_, found⟩ | ⟨_, ⟨found, _⟩ | ⟨i, held, read, client, found⟩⟩
  · rw [found, decline]
    · exact same
    · intro _ _ _ _ _ _ other
      cases other
  · rw [found, decline]
    · exact same
    · intro _ _ _ _ _ _ other
      cases other
  · rw [found]
    cases server : packet.serverId with
    | none =>
        simp only [decline, server]
        exact same
    | some id =>
        cases asked : packet.requestedIp with
        | none =>
            simp only [decline, server, asked]
            exact same
        | some requested =>
            simp only [decline, server, asked]
            by_cases mine : requested = held.nip
            · rw [if_pos mine]
              have soon := punctual.soon
              have : config.declineTime ≤ longest config := by rw [longest]; omega
              have early : (moment.now + config.declineTime) % 0x100000000 < 0x80000000 := by omega
              exact slot_handled config moment packet leases sound i held
                { held with mac := 0, expires := (moment.now + config.declineTime) % 0x100000000 } read client rfl
                  (Or.inr rfl) rfl
                early leaving
            · rw [if_neg mine]
              exact same

theorem release_handled (punctual : Punctual config clock moment) (leases : Table) (sound : Sound config leases)
    (leaving : givesUp packet = true) :
    Handled config moment packet leases (release moment packet (lookupLease config packet.chaddr leases) leases,
    none) := by
  have same := handled_same config moment packet leases none sound rfl
  rcases lookup_cases config packet.chaddr leases with ⟨_, found⟩ | ⟨_, ⟨found, _⟩ | ⟨i, held, read, client, found⟩⟩
  · rw [found, release]
    · exact same
    · intro _ _ _ _ other
      cases other
  · rw [found, release]
    · exact same
    · intro _ _ _ _ other
      cases other
  · rw [found]
    cases server : packet.serverId with
    | none =>
        simp only [release, server]
        exact same
    | some id =>
        simp only [release, server]
        by_cases mine : packet.ciaddr = held.nip
        · rw [if_pos mine]
          have soon := punctual.soon
          have early : moment.now < 0x80000000 := by omega
          exact slot_handled config moment packet leases sound i held { held with expires :=
            moment.now } read client rfl
            (Or.inl rfl) rfl early leaving
        · rw [if_neg mine]
          exact same

theorem handle_spec (sane : Sane config) (punctual : Punctual config clock moment) (leases : Table)
    (sound : Sound config leases) :
    Handled config moment packet leases (handle config moment packet leases) := by
  have same := fun reply => handled_same config moment packet leases reply sound
  rw [handle]
  split
  · exact same none rfl
  · cases kind : packet.messageType with
    | none => exact same none rfl
    | some state =>
        dsimp only
        split
        · exact same none rfl
        · split
          · rename_i discover
            exact offer_handled config moment clock packet sane punctual leases sound
              (by simp [givesUp, kind, discover])
          · split
            · exact request_handled config moment clock packet sane punctual leases sound
            · split
              · rename_i declined
                exact decline_handled config moment clock packet punctual leases sound
                  (by simp [givesUp, kind, declined])
              · split
                · rename_i released
                  exact release_handled config moment clock packet punctual leases sound
                    (by simp [givesUp, kind, released])
                · split
                  · exact same (some .inform) rfl
                  · exact same none rfl

end Steps

end Ftm50s.Udhcpd
