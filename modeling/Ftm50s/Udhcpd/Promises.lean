import Ftm50s.Udhcpd.Handling

set_option autoImplicit false

namespace Ftm50s.Udhcpd

open Lib.Text Lib.SlotTable

-- The server with what its clients hold: the last address each was offered or
-- acknowledged and has not given up since
structure World where
  leases : Table
  promises : Mac → Option Promise
  clock : Nat

inductive Event where
  | packet (moment : Moment) (packet : Packet)
  | restart (stopped started : Nat)

variable (config : Config)

def promised (moment : Moment) (packet : Packet) (reply : Option Reply) (before : Option Promise) : Option Promise :=
  match reply.bind (granted config moment) with
  | some promise => some promise
  | none => if givesUp packet then none else before

def step (world : World) : Event → World
  | .packet moment packet =>
      let result := handle config moment packet world.leases
      ⟨result.1,
        fun mac => if mac = packet.chaddr then promised config moment packet result.2
          (world.promises mac) else world.promises mac,
        moment.now⟩
  | .restart stopped started => ⟨restarted config stopped started world.leases, world.promises, started⟩

-- Time goes on, and a stopped server is back within the twelve hours that
-- read_leases allows.
def Allowed (clock : Nat) : Event → Prop
  | .packet moment _ => Punctual config clock moment
  | .restart stopped started =>
      clock ≤ stopped ∧ stopped ≤ started ∧ started ≤ stopped + 12 * 60 * 60 ∧ started < 0x80000000

inductive Reachable (slots : Nat) : World → Prop where
  | start (clock : Nat) (positive : 0 < clock) : Reachable slots ⟨List.replicate slots emptyLease, fun _ => none, clock⟩
  | next (world : World) (event : Event) (before : Reachable slots world) (allowed : Allowed config world.clock event) :
      Reachable slots (step config world event)

structure Backed (world : World) : Prop where
  positive : 0 < world.clock
  sound : Sound config world.leases
  covers : ∀ mac promise, mac ≠ 0 → world.promises mac = some promise → world.clock < promise.deadline →
    Covers config world.leases mac promise

theorem pool_nonzero (sane : Sane config) (nip : Nat) (pool : InPool config nip) : nip ≠ 0 := by
  have first := sane.first
  have := pool.1
  omega

theorem regrant_sound (now : Nat) (wanted : List Lease) (leases : Table) (sound : Sound config leases)
    (each : ∀ lease ∈ wanted, Storable lease ∧ lease.expires < 0x80000000 ∧ Survives config now lease) :
    Sound config (regrant now wanted leases) := by
  induction wanted generalizing leases with
  | nil => exact sound
  | cons lease rest ih =>
      rw [List.forall_mem_cons] at each
      obtain ⟨storable, bound, _, pool, live⟩ := each.1
      have next : Sound config (addLease now (some lease.mac) lease.nip (lease.expires - now)
        (some lease.hostname) leases).1 :=
        sound_add config _ _ _ _ _ _ sound storable.nip (by omega) fun _ _ _ _ => pool
      rw [regrant_cons]
      split
      · rename_i run
        rwa [run] at next
      · rename_i run
        rw [run] at next
        exact ih _ next each.2

theorem restart_backed (sane : Sane config) (world : World) (stopped started : Nat) (backed : Backed config world)
    (allowed : Allowed config world.clock (.restart stopped started)) :
    Backed config (step config world (.restart stopped started)) := by
  obtain ⟨late, order, early, soon⟩ := allowed
  have positive := backed.positive
  have sound := backed.sound
  refine ⟨show 0 < started by omega, ?_, ?_⟩
  · have table := restarted_regrant config stopped started world.leases order early soon sound.storable sound.bound
    rw [step, table]
    apply regrant_sound config started _ _ (sound_empty config _)
    intro lease member
    obtain ⟨inside, survives⟩ := List.mem_filter.mp member
    exact ⟨sound.storable lease inside, sound.bound lease inside, of_decide_eq_true survives⟩
  · intro mac promise client given live
    have after : started < promise.deadline := live
    rcases backed.covers mac promise client given (by omega) with static | ⟨dynamic, reserved | ⟨lease, member, owner,
      nip, deadline⟩⟩
    · exact Or.inl static
    · exact Or.inr ⟨dynamic, Or.inl reserved⟩
    · have pool := sound.pool lease member (by rwa [owner]) (by rwa [owner])
      have survives : Survives config started lease := ⟨pool_nonzero config sane _ pool, pool, by omega⟩
      refine Or.inr ⟨dynamic, Or.inr ⟨lease, ?_, owner, nip, deadline⟩⟩
      have stays := restarted_mem config stopped started world.leases
        (by omega) order early soon sound.storable sound.bound
        sound.macs sound.nips lease (by rwa [owner])
      dsimp only [step]
      exact stays.mpr ⟨member, survives⟩

theorem packet_backed (sane : Sane config) (world : World) (moment : Moment) (packet : Packet)
    (backed : Backed config world) (punctual : Punctual config world.clock moment) :
    Backed config (step config world (.packet moment packet)) := by
  have handled := handle_spec config moment world.clock packet sane punctual world.leases backed.sound
  have asked := punctual.asked
  refine ⟨?_, handled.sound, ?_⟩
  · have := punctual.positive
    show 0 < moment.now
    omega
  · intro mac promise client given live
    have after : moment.now < promise.deadline := live
    have before : world.clock < promise.deadline := by omega
    simp only [step] at given ⊢
    by_cases own : mac = packet.chaddr
    · rw [if_pos own, promised] at given
      cases grant : (handle config moment packet world.leases).2.bind (granted config moment) with
      | some fresh =>
          simp only [grant, Option.some.injEq] at given
          rw [own, ← given]
          exact handled.own (own ▸ client) fresh grant
      | none =>
          simp only [grant] at given
          cases leaving : givesUp packet with
          | true =>
              rw [leaving, if_pos rfl] at given
              cases given
          | false =>
              rw [leaving, if_neg (by decide)] at given
              rw [handled.still grant leaving]
              exact backed.covers mac promise client given before
    · rw [if_neg own] at given
      rcases backed.covers mac promise client given before with static | ⟨dynamic, reserved | ⟨lease, member, owner,
        nip, deadline⟩⟩
      · exact Or.inl static
      · exact Or.inr ⟨dynamic, Or.inl reserved⟩
      · refine Or.inr ⟨dynamic, ?_⟩
        cases reserved : isNipReserved config.staticLeases promise.nip with
        | true => exact Or.inl rfl
        | false =>
            have stays := handled.keeps lease member (by rwa [owner]) (by rwa [nip]) (by omega)
            exact Or.inr ⟨lease, stays, owner, nip, deadline⟩

theorem reachable_backed (slots : Nat) (sane : Sane config) (world : World) (reached : Reachable config slots world) :
    Backed config world := by
  induction reached with
  | start clock positive =>
      refine ⟨positive, sound_empty config slots, ?_⟩
      intro mac promise _ given
      cases given
  | next world event before allowed ih =>
      cases event with
      | packet moment packet => exact packet_backed config sane world moment packet ih allowed
      | restart stopped started => exact restart_backed config sane world stopped started ih allowed

def sampleConfig : Config :=
  { startIp := 0xC0A80114, endIp := 0xC0A80118, serverNip := 0xC0A80101, maxLeaseSec := 864000, minLeaseSec := 60,
    offerTime := 60, declineTime := 3600, conflictTime := 3600, staticLeases := [(0xAA, 0xC0A80116)], baseIpOnMac :=
    false }

def quiet (now : Nat) : Moment := ⟨now, fun _ => true, fun _ => now, now, true, now, now⟩

def discover (mac : Mac) : Packet := ⟨6, 1, some DHCPDISCOVER, mac, 0, none, none, none, none⟩

def requestFor (mac : Mac) (nip : Nat) : Packet := ⟨6, 1, some DHCPREQUEST, mac, 0, none, some nip, none, none⟩

def offeredWorld : World := step sampleConfig ⟨List.replicate 3 emptyLease, fun _ => none, 1000⟩
    (.packet (quiet 1000) (discover 1))

def leasedWorld : World := step sampleConfig offeredWorld (.packet (quiet 1001) (requestFor 1 0xC0A80114))

def sharedWorld : World :=
  step sampleConfig (step sampleConfig leasedWorld (.restart 2000 2060)) (.packet (quiet 3000) (discover 2))

theorem sample_sane : Sane sampleConfig := ⟨by decide, by decide, by decide, by decide⟩

theorem quiet_punctual (clock now : Nat) (positive : 0 < clock) (order : clock ≤ now)
    (soon : now + longest config < 0x80000000) :
    Punctual config clock (quiet now) :=
  ⟨positive, ⟨order, le_refl now⟩, fun _ => ⟨order, le_refl now⟩, ⟨order, le_refl now⟩, ⟨order, le_refl now⟩, soon⟩

theorem leased_reached : Reachable sampleConfig 3 leasedWorld := by
  have offered : Reachable sampleConfig 3 offeredWorld :=
    .next _ _ (.start 1000 (by decide)) (quiet_punctual _ 1000 1000 (by decide) (by decide) (by decide))
  exact .next _ _ offered (quiet_punctual _ 1000 1001 (by decide) (by decide) (by decide))

theorem shared_reached : Reachable sampleConfig 3 sharedWorld := by
  have restarted : Reachable sampleConfig 3 (step sampleConfig leasedWorld (.restart 2000 2060)) :=
    .next _ _ leased_reached ⟨by decide, by decide, by decide, by decide⟩
  exact .next _ _ restarted (quiet_punctual _ 2060 3000 (by decide) (by decide) (by decide))

theorem promise_found (sane : Sane config) (world : World) (backed : Backed config world) (mac : Mac)
    (promise : Promise) (client : mac ≠ 0) (given : world.promises mac = some promise)
      (live : world.clock < promise.deadline) (free : getStaticNipByMac config.staticLeases mac ≠ 0 ∨
      isNipReserved config.staticLeases promise.nip = false) :
    ∃ found, lookupLease config mac world.leases = some found ∧ found.nip = promise.nip ∧ promise.nip ≠ 0 := by
  rcases backed.covers mac promise client given live with ⟨static, same⟩ | ⟨dynamic, reserved | ⟨lease, member, owner,
    nip, _⟩⟩
  · rcases lookup_cases config mac world.leases with ⟨_, found⟩ | ⟨none, _⟩
    · exact ⟨_, found, same.symm, by rwa [same]⟩
    · exact absurd none static
  · rcases free with static | unreserved
    · exact absurd dynamic static
    · rw [unreserved] at reserved
      cases reserved
  · have nonzero := pool_nonzero config sane _ (backed.sound.pool lease member (by rwa [owner]) (by rwa [owner]))
    rcases lookup_cases config mac world.leases with ⟨static, _⟩ | ⟨_, ⟨_, absent⟩ | ⟨i, held, read, mine, found⟩⟩
    · exact absurd dynamic static
    · exact absurd owner (absent lease member)
    · obtain rfl := same_lease macKey world.leases backed.sound.macs lease held _ member (List.mem_of_getElem? read)
        ((mac_key _ _).mpr ⟨owner, client⟩) ((mac_key _ _).mpr ⟨mine, client⟩)
      exact ⟨_, found, nip, by rwa [← nip]⟩

-- What a restart leaves of the table: every lease of a client in the pool whose
-- time is not over, with its deadline, and nothing else of any client.
theorem kept_leases (slots : Nat) (sane : Sane config) (world : World) (reached : Reachable config slots world)
    (stopped started : Nat) (allowed : Allowed config world.clock (.restart stopped started)) (lease : Lease)
    (client : lease.mac ≠ 0) :
    lease ∈ (step config world (.restart stopped started)).leases ↔
      lease ∈ world.leases ∧ lease.nip ≠ 0 ∧ InPool config lease.nip ∧ started < lease.expires := by
  have backed := reachable_backed config slots sane world reached
  have positive := backed.positive
  obtain ⟨late, order, early, soon⟩ := allowed
  have kept := restarted_mem config stopped started world.leases (by omega) order early soon backed.sound.storable
    backed.sound.bound backed.sound.macs backed.sound.nips lease client
  rw [step, kept, Survives]

theorem kept_leases_sample :
    (⟨865001, 0xC0A80114, 1, []⟩ : Lease) ∈ (step sampleConfig leasedWorld (.restart 2000 2060)).leases := by
  have held : leasedWorld.leases[0]? = some ⟨865001, 0xC0A80114, 1, []⟩ := by decide +kernel
  exact (kept_leases sampleConfig 3 sample_sane leasedWorld leased_reached 2000 2060
    ⟨by decide, by decide, by decide, by decide⟩
    _ (by decide)).mpr ⟨List.mem_of_getElem? held, by decide, by decide, by decide⟩

end Ftm50s.Udhcpd
