import Ftm50s.Udhcpd.Restart

set_option autoImplicit false

namespace Ftm50s.Udhcpd

open Lib.Text Lib.SlotTable

-- A configuration with a pool of addresses, all of 32 bits
structure Sane (config : Config) : Prop where
  first : 0 < config.startIp
  order : config.startIp ≤ config.endIp
  last : config.endIp < 0x100000000
  statics : ∀ lease ∈ config.staticLeases, lease.2 < 0x100000000

def longest (config : Config) : Nat :=
  max (max config.maxLeaseSec config.minLeaseSec) (max config.offerTime (max config.declineTime config.conflictTime))

-- The clock does not go back while a packet is handled, and no lease reaches 2038.
structure Punctual (config : Config) (clock : Nat) (moment : Moment) : Prop where
  positive : 0 < clock
  asked : clock ≤ moment.asked ∧ moment.asked ≤ moment.now
  probed : ∀ addr, clock ≤ moment.probed addr ∧ moment.probed addr ≤ moment.now
  searched : clock ≤ moment.searched ∧ moment.searched ≤ moment.now
  lastProbed : clock ≤ moment.lastProbed ∧ moment.lastProbed ≤ moment.now
  soon : moment.now + longest config < 0x80000000

structure Sound (config : Config) (leases : Table) : Prop where
  macs : Unique macKey leases
  nips : Unique nipKey leases
  storable : ∀ lease ∈ leases, Storable lease
  bound : ∀ lease ∈ leases, lease.expires < 0x80000000
  pool : ∀ lease ∈ leases, lease.mac ≠ 0 → getStaticNipByMac config.staticLeases lease.mac = 0 → InPool config lease.nip

theorem same_lease {κ : Type} (key : Lease → Option κ) (leases : Table) (unique : Unique key leases) (a b : Lease)
    (k : κ) (memberA : a ∈ leases) (memberB : b ∈ leases) (keyA : key a = some k) (keyB : key b = some k) : a = b := by
  obtain ⟨i, readA⟩ := List.getElem?_of_mem memberA
  obtain ⟨j, readB⟩ := List.getElem?_of_mem memberB
  obtain rfl := unique i j a b k readA readB keyA keyB
  exact Option.some.inj (readA.symm.trans readB)

variable (config : Config)

theorem select_lease_time (packet : Packet) : selectLeaseTime config packet ≤ longest config := by
  rw [selectLeaseTime, longest]
  cases packet.leaseTime with
  | none => exact le_trans (le_max_left _ _) (le_max_left _ _)
  | some wanted =>
      dsimp only
      split <;> split <;> omega

theorem static_reserved (mac : Mac) (static : getStaticNipByMac config.staticLeases mac ≠ 0) :
    isNipReserved config.staticLeases (getStaticNipByMac config.staticLeases mac) = true ∧
      ∃ lease ∈ config.staticLeases, lease.2 = getStaticNipByMac config.staticLeases mac := by
  rw [getStaticNipByMac] at static ⊢
  cases found : config.staticLeases.find? fun lease => decide (lease.1 = mac) with
  | none => exact absurd (by rw [found]; rfl) static
  | some lease =>
      have member := List.mem_of_find?_eq_some found
      refine ⟨?_, lease, member, rfl⟩
      exact List.any_eq_true.mpr ⟨lease, member, by simp⟩

theorem sound_empty (slots : Nat) : Sound config (List.replicate slots emptyLease) := by
  have free : ∀ {lease : Lease}, lease ∈ List.replicate slots emptyLease → lease = emptyLease :=
    List.eq_of_mem_replicate
  constructor
  · intro i j a b k readA _ hitA _
    rw [free (List.mem_of_getElem? readA)] at hitA
    cases hitA
  · intro i j a b k readA _ hitA _
    rw [free (List.mem_of_getElem? readA)] at hitA
    cases hitA
  · intro lease member
    rw [free member]
    exact ⟨by decide, by decide, by decide⟩
  · intro lease member
    rw [free member]
    decide
  · intro lease member client
    rw [free member] at client
    exact absurd rfl client

theorem sound_add (now : Nat) (chaddr : Option Mac) (yiaddr leasetime : Nat) (hostname : Option Bytes) (leases : Table)
    (sound : Sound config leases) (address : yiaddr < 0x100000000) (soon : now + leasetime < 0x80000000)
    (pool : ∀ mac, chaddr = some mac → mac ≠ 0 → getStaticNipByMac config.staticLeases mac = 0 → InPool config yiaddr) :
    Sound config (addLease now chaddr yiaddr leasetime hostname leases).1 := by
  have each : ∀ lease ∈ (addLease now chaddr yiaddr leasetime hostname leases).1,
      lease = emptyLease ∨ lease ∈ leases ∨ lease = freshLease now chaddr yiaddr leasetime hostname := by
    intro lease member
    obtain ⟨i, read⟩ := List.getElem?_of_mem member
    rcases add_lease_read now chaddr yiaddr leasetime hostname leases i lease read with empty | ⟨old, _⟩ | fresh
    · exact Or.inl empty
    · exact Or.inr (Or.inl (List.mem_of_getElem? old))
    · exact Or.inr (Or.inr fresh)
  have short : (freshLease now chaddr yiaddr leasetime hostname).expires = now + leasetime :=
    Nat.mod_eq_of_lt (by omega)
  constructor
  · exact add_lease_macs now chaddr yiaddr leasetime hostname leases sound.macs
  · exact add_lease_nips now chaddr yiaddr leasetime hostname leases sound.nips
  · intro lease member
    rcases each lease member with rfl | old | rfl
    · exact ⟨by decide, by decide, by decide⟩
    · exact sound.storable lease old
    · exact ⟨by omega, address, stored_name_again hostname⟩
  · intro lease member
    rcases each lease member with rfl | old | rfl
    · decide
    · exact sound.bound lease old
    · omega
  · intro lease member client dynamic
    rcases each lease member with rfl | old | rfl
    · exact absurd rfl client
    · exact sound.pool lease old client dynamic
    · cases chaddr with
      | none => exact absurd rfl client
      | some mac => exact pool mac rfl client dynamic

-- Every lease that is live at the end of a step is still in the table.
def Keeps (now : Nat) (leases next : Table) : Prop := ∀ lease ∈ leases, now ≤ lease.expires → lease ∈ next

theorem keeps_refl (now : Nat) (leases : Table) : Keeps now leases leases := fun _ member _ => member

theorem keeps_trans (now : Nat) (leases middle next : Table) (one : Keeps now leases middle)
    (two : Keeps now middle next) :
    Keeps now leases next := fun lease member live => two lease (one lease member live) live

-- What stands in an address's way when it is given to a client
def Free (now nip : Nat) (leases : Table) : Prop := ∀ lease ∈ leases, lease.nip = nip → lease.expires < now

section Probe

variable (silent : Bool) (now nip : Nat) (leases : Table)

theorem probe_cases :
    (silent = true ∧ nobodyRespondsToArp config silent now nip leases = (leases, true)) ∨
      (silent = false ∧ nobodyRespondsToArp config silent now nip leases =
      ((addLease now none nip config.conflictTime none leases).1, false)) := by
  cases silent with
  | true => exact Or.inl ⟨rfl, rfl⟩
  | false => exact Or.inr ⟨rfl, rfl⟩

theorem probe_keeps (last : Nat) (before : now ≤ last) (free : Free last nip leases) :
    Keeps last leases (addLease now none nip config.conflictTime none leases).1 := by
  intro lease member live
  obtain ⟨i, read⟩ := List.getElem?_of_mem member
  have other : matchesLease none nip lease = false := by
    rw [Bool.eq_false_iff]
    intro hit
    rcases (matches_lease _ _ _).mp hit with same | ⟨_, same⟩
    · cases same
    · have := free lease member same
      omega
  exact List.mem_of_getElem? (add_lease_kept now none nip config.conflictTime none leases i lease read other (by omega))

theorem clear_absent (absent : ∀ lease ∈ leases, lease.nip ≠ nip) : clearLeases none nip leases = leases := by
  have each : ∀ lease ∈ leases, (if matchesLease none nip lease then emptyLease else lease) = lease := by
    intro lease member
    rw [if_neg]
    intro hit
    rcases (matches_lease _ _ _).mp hit with same | ⟨_, same⟩
    · cases same
    · exact absent lease member same
  rw [clearLeases, List.map_congr_left each, List.map_id']

theorem probe_slot (o : Nat) (absent : ∀ lease ∈ leases, lease.nip ≠ nip) :
    ((addLease now none nip config.conflictTime none leases).1.getD o emptyLease).nip = (leases.getD o emptyLease).nip ∨
      ((addLease now none nip config.conflictTime none leases).1.getD o emptyLease).nip = nip := by
  rcases add_lease_cases now none nip config.conflictTime none leases with ⟨_, run⟩ | ⟨i, old, slot, _, run⟩
  · rw [run, clear_absent nip leases absent]
    exact Or.inl rfl
  · rw [clear_absent nip leases absent] at slot run
    have inside : i < leases.length := (List.getElem?_eq_some_iff.mp slot).1
    rw [run, List.getD_eq_getElem?_getD, List.getD_eq_getElem?_getD]
    by_cases same : i = o
    · subst same
      rw [List.getElem?_set_self inside]
      exact Or.inr rfl
    · rw [List.getElem?_set_ne same]
      exact Or.inl rfl

end Probe

-- What a choice of an address leaves behind
structure Searched (moment : Moment) (leases : Table) (result : Table × Nat) : Prop where
  sound : Sound config result.1
  keeps : Keeps moment.now leases result.1
  chosen : result.2 = 0 ∨ (InPool config result.2 ∧ usable config result.2 = true ∧ Free moment.now result.2 result.1)

theorem addresses_pool (sane : Sane config) (mac : Mac) : ∀ addr ∈ addresses config mac, InPool config addr := by
  intro addr member
  have first := sane.first
  have order := sane.order
  have last := sane.last
  have size : poolSize config = config.endIp - config.startIp + 1 := by
    rw [poolSize]
    omega
  obtain ⟨k, inside, rfl⟩ := List.mem_map.mp member
  rw [List.mem_range, size] at inside
  cases base : config.baseIpOnMac with
  | true =>
      have wrapped := Nat.mod_lt (macHash mac % poolSize config + k) (show 0 < poolSize config by omega)
      simp only [if_true]
      exact ⟨by omega, by omega⟩
  | false =>
      simp only [Bool.false_eq_true, if_false]
      exact ⟨by omega, by omega⟩

section Search

variable (moment : Moment) (clock : Nat)

theorem conflict_sound (punctual : Punctual config clock moment) (now addr : Nat) (leases : Table)
    (within : now ≤ moment.now) (address : addr < 0x100000000) (sound : Sound config leases) :
    Sound config (addLease now none addr config.conflictTime none leases).1 := by
  apply sound_add config _ _ _ _ _ _ sound address
  · have := punctual.soon
    have : config.conflictTime ≤ longest config := by rw [longest]; omega
    omega
  · intro mac none
    cases none

theorem search_end (sane : Sane config) (punctual : Punctual config clock moment) (o : Nat) (leases : Table)
    (sound : Sound config leases) (known : InPool config (leases.getD o emptyLease).nip ∧
    usable config (leases.getD o emptyLease).nip = true) :
    Searched config moment leases (searchAddresses config moment [] leases (some o)) := by
  rw [searchAddresses]
  cases expired : isExpiredLease moment.searched (leases.getD o emptyLease) with
  | false => exact ⟨sound, keeps_refl _ _, Or.inl rfl⟩
  | true =>
      have first := sane.first
      have last := sane.last
      have nonzero : (leases.getD o emptyLease).nip ≠ 0 := by
        have := known.1.1
        omega
      have slot : leases[o]? = some (leases.getD o emptyLease) := by
        cases read : leases[o]? with
        | none => exact absurd (by rw [List.getD_eq_getElem?_getD, read]; rfl) nonzero
        | some lease => rw [List.getD_eq_getElem?_getD, read, Option.getD_some]
      have before : (leases.getD o emptyLease).expires < moment.searched := of_decide_eq_true expired
      have free : Free moment.now (leases.getD o emptyLease).nip leases := by
        intro lease member same
        obtain rfl := same_lease nipKey leases sound.nips lease _ _ member (List.mem_of_getElem? slot)
          ((nip_key _ _).mpr ⟨same, nonzero⟩) ((nip_key _ _).mpr ⟨rfl, nonzero⟩)
        have := punctual.searched.2
        omega
      rcases probe_cases config moment.lastSilent moment.lastProbed (leases.getD o emptyLease).nip leases with ⟨_,
        run⟩ | ⟨_, run⟩
      · rw [run]
        exact ⟨sound, keeps_refl _ _, Or.inr ⟨known.1, known.2, free⟩⟩
      · rw [run]
        refine ⟨?_, ?_, Or.inl rfl⟩
        · have := known.1.2
          exact conflict_sound config moment clock punctual _ _ leases punctual.lastProbed.2 (by omega) sound
        · exact probe_keeps config moment.lastProbed _ leases moment.now punctual.lastProbed.2 free

theorem search_spec (sane : Sane config) (punctual : Punctual config clock moment) (addrs : List Nat) (leases : Table)
    (oldest : Option Nat) (sound : Sound config leases) (pool : ∀ addr ∈ addrs, InPool config addr) (known : ∀ o,
    oldest = some o → InPool config (leases.getD o emptyLease).nip ∧ usable config (leases.getD o emptyLease).nip =
    true) :
    Searched config moment leases (searchAddresses config moment addrs leases oldest) := by
  induction addrs generalizing leases oldest with
  | nil =>
      cases oldest with
      | none => exact ⟨sound, keeps_refl _ _, Or.inl rfl⟩
      | some o => exact search_end config moment clock sane punctual o leases sound (known o rfl)
  | cons addr rest ih =>
      rw [List.forall_mem_cons] at pool
      rw [searchAddresses]
      cases fit : usable config addr with
      | false => exact ih leases oldest sound pool.2 known
      | true =>
          cases place : leases.findIdx? fun lease => decide (lease.nip = addr) with
          | some i =>
              dsimp only [Bool.not_true, Bool.false_eq_true, if_false]
              apply ih leases _ sound pool.2
              intro o chosen
              split at chosen
              · obtain rfl := Option.some.inj chosen
                obtain ⟨inside, same, _⟩ := List.findIdx?_eq_some_iff_getElem.mp place
                have nip : (leases.getD i emptyLease).nip = addr := by
                  rw [List.getD_eq_getElem?_getD, List.getElem?_eq_getElem inside]
                  exact of_decide_eq_true same
                rw [nip]
                exact ⟨pool.1, fit⟩
              · exact known o chosen
          | none =>
              have absent : ∀ lease ∈ leases, lease.nip ≠ addr := by
                simpa using List.findIdx?_eq_none_iff.mp place
              have free : Free moment.now addr leases := fun lease member same => absurd same (absent lease member)
              dsimp only [Bool.not_true, Bool.false_eq_true, if_false]
              rcases probe_cases config (moment.silent addr) (moment.probed addr) addr leases with ⟨_, run⟩ | ⟨_, run⟩
              · rw [run]
                exact ⟨sound, keeps_refl _ _, Or.inr ⟨pool.1, fit, free⟩⟩
              · rw [run]
                have probed := punctual.probed addr
                have address : addr < 0x100000000 := by
                  have := pool.1.2
                  have := sane.last
                  omega
                have next := conflict_sound config moment clock punctual _ addr leases probed.2 address sound
                have found := ih _ oldest next pool.2 (by
                  intro o chosen
                  rcases probe_slot config (moment.probed addr) addr leases o absent with same | same
                  · rw [same]
                    exact known o chosen
                  · rw [same]
                    exact ⟨pool.1, fit⟩)
                exact ⟨found.sound, keeps_trans _ _ _ _ (probe_keeps config _ _ _ _ probed.2 free) found.keeps,
                  found.chosen⟩

end Search

end Ftm50s.Udhcpd
