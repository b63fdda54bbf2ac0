import Ftm50s.Udhcpd.LeaseFile

set_option autoImplicit false

namespace Ftm50s.Udhcpd

open Lib.Text Lib.BigEndian Lib.SlotTable

def InPool (config : Config) (nip : Nat) : Prop := config.startIp ≤ nip ∧ nip ≤ config.endIp

instance (config : Config) (nip : Nat) : Decidable (InPool config nip) := inferInstanceAs (Decidable (_ ∧ _))

def timeLeft (now : Nat) (lease : Lease) : Lease := { lease with expires := lease.expires - now }

-- Leases handed back to the table one after the other, with the deadlines they had
def regrant (now : Nat) (leases : List Lease) (next : Table) : Table := addAll now (leases.map (timeLeft now)) next

-- A lease that survives the restart
def Survives (config : Config) (started : Nat) (lease : Lease) : Prop :=
  lease.nip ≠ 0 ∧ InPool config lease.nip ∧ started < lease.expires

instance (config : Config) (started : Nat) (lease : Lease) : Decidable (Survives config started lease) :=
  inferInstanceAs (Decidable (_ ∧ _))

theorem left_over_stored (stopped started expires : Nat) (order : stopped ≤ started) (soon : started < 0x80000000)
    (bound : expires < 0x80000000) : leftOver (started - stopped) (remaining stopped expires) =
      if started < expires then some (expires - started) else none := by
  have left : remaining stopped expires = expires - stopped := by
    rw [remaining]
    split <;> omega
  rw [left, leftOver]
  split
  · rw [if_neg]
    omega
  · rw [if_pos]
    · congr 1
      omega
    · omega

theorem wanted_stored (config : Config) (stopped started : Nat) (leases : Table) (order : stopped ≤ started)
    (soon : started < 0x80000000) (bound : ∀ lease ∈ leases, lease.expires < 0x80000000) :
    (stored stopped leases).filterMap (wanted config (started - stopped)) =
      (leases.filter fun lease => decide (Survives config started lease)).map (timeLeft started) := by
  induction leases with
  | nil => rfl
  | cons lease rest ih =>
      rw [List.forall_mem_cons] at bound
      have left := left_over_stored stopped started lease.expires order soon bound.1
      by_cases address : lease.nip = 0
      · have lost : ¬ Survives config started lease := fun survives => survives.1 address
        have gone : stored stopped (lease :: rest) = stored stopped rest := by simp [stored, address]
        rw [gone, ih bound.2, List.filter_cons_of_neg (by simpa using lost)]
      · have kept : stored stopped (lease :: rest) =
            { lease with expires := remaining stopped lease.expires } :: stored stopped rest := by
            simp [stored, address]
        have one : wanted config (started - stopped) { lease with expires := remaining stopped lease.expires } =
            if Survives config started lease then some (timeLeft started lease) else none := by
          by_cases pool : config.startIp ≤ lease.nip ∧ lease.nip ≤ config.endIp
          · rw [wanted, if_pos pool, left]
            by_cases live : started < lease.expires
            · rw [if_pos live, if_pos ⟨address, pool, live⟩]
              rfl
            · rw [if_neg live, if_neg fun survives => live survives.2.2]
              rfl
          · rw [wanted, if_neg pool, if_neg fun survives => pool survives.2.1]
        rw [kept, List.filterMap_cons, one, ih bound.2]
        by_cases survives : Survives config started lease
        · rw [if_pos survives, List.filter_cons_of_pos (by simpa using survives), List.map_cons]
        · rw [if_neg survives, List.filter_cons_of_neg (by simpa using survives)]

theorem fresh_again (now : Nat) (lease : Lease) (storable : Storable lease) (live : now < lease.expires) :
    freshLease now (some lease.mac) lease.nip (lease.expires - now) (some lease.hostname) = lease := by
  have expires := storable.expires
  rw [freshLease, storable.hostname, Option.getD_some]
  congr 1
  omega

-- How many slots are taken for good
def busy (now : Nat) (leases : Table) : Nat := leases.countP fun lease => decide (now ≤ lease.expires)

theorem busy_bound (now : Nat) (chaddr : Option Mac) (yiaddr leasetime : Nat) (hostname : Option Bytes) (leases : Table)
    (positive : 0 < now) : busy now (addLease now chaddr yiaddr leasetime hostname leases).1 ≤ busy now leases + 1 := by
  have cleared : busy now (clearLeases chaddr yiaddr leases) ≤ busy now leases := by
    rw [busy, clearLeases, List.countP_map]
    apply List.countP_mono_left
    intro lease _ live
    rw [Function.comp_apply, decide_eq_true_eq] at live
    split at live
    · exact absurd live (show ¬ now ≤ 0 by omega)
    · simpa using live
  rcases add_lease_cases now chaddr yiaddr leasetime hostname leases with ⟨_, run⟩ | ⟨i, old, slot, _, run⟩
  · rw [run]
    exact le_trans cleared (Nat.le_succ _)
  · have inside : i < (clearLeases chaddr yiaddr leases).length := (List.getElem?_eq_some_iff.mp slot).1
    rw [run, busy, List.countP_set inside]
    have := cleared
    rw [busy] at this
    split <;> split <;> omega

theorem add_lease_room (now : Nat) (chaddr : Option Mac) (yiaddr leasetime : Nat) (hostname : Option Bytes)
    (leases : Table) (positive : 0 < now) (room : busy now leases < leases.length) :
    ∃ i, (addLease now chaddr yiaddr leasetime hostname leases).2 = some i := by
  have free : ∃ lease ∈ leases, lease.expires < now := by
    by_contra none
    push Not at none
    have all : busy now leases = leases.length := List.countP_eq_length.mpr (by simpa using none)
    omega
  obtain ⟨lease, member, expired⟩ := free
  exact Option.ne_none_iff_exists'.mp (add_lease_taken now chaddr yiaddr leasetime hostname leases lease member positive
    (Or.inr expired))

theorem regrant_cons (now : Nat) (lease : Lease) (rest : List Lease) (leases : Table) :
    regrant now (lease :: rest) leases = match addLease now (some lease.mac) lease.nip (lease.expires - now)
      (some lease.hostname) leases with
      | (next, none) => next
      | (next, some _) => regrant now rest next := rfl

theorem regrant_taken (now : Nat) (lease : Lease) (rest : List Lease) (leases : Table) (i : Nat)
    (taken : (addLease now (some lease.mac) lease.nip (lease.expires - now) (some lease.hostname) leases).2 = some i) :
    regrant now (lease :: rest) leases =
      regrant now rest (addLease now (some lease.mac) lease.nip (lease.expires - now)
        (some lease.hostname) leases).1 := by
  rw [regrant_cons]
  split
  · rename_i run
    rw [run] at taken
    cases taken
  · rename_i run
    rw [run]

theorem regrant_kept (now : Nat) (wanted : List Lease) (leases : Table) (a : Lease) (member : a ∈ leases)
    (live : now ≤ a.expires) (apart : ∀ b ∈ wanted, matchesLease (some b.mac) b.nip a = false) :
    a ∈ regrant now wanted leases := by
  induction wanted generalizing leases with
  | nil => exact member
  | cons b rest ih =>
      rw [List.forall_mem_cons] at apart
      obtain ⟨i, read⟩ := List.getElem?_of_mem member
      have stays := add_lease_kept now (some b.mac) b.nip (b.expires - now)
        (some b.hostname) leases i a read apart.1 live
      rw [regrant_cons]
      split
      · rename_i run
        rw [run] at stays
        exact List.mem_of_getElem? stays
      · rename_i run
        rw [run] at stays
        exact ih _ (List.mem_of_getElem? stays) apart.2

theorem regrant_origin (now : Nat) (wanted : List Lease) (leases : Table) (a : Lease)
    (each : ∀ b ∈ wanted, Storable b ∧ now < b.expires) (member : a ∈ regrant now wanted leases) :
    a = emptyLease ∨ a ∈ leases ∨ a ∈ wanted := by
  induction wanted generalizing leases with
  | nil => exact Or.inr (Or.inl member)
  | cons b rest ih =>
      rw [List.forall_mem_cons] at each
      have one : ∀ lease, lease ∈ (addLease now (some b.mac) b.nip (b.expires - now) (some b.hostname) leases).1 →
          lease = emptyLease ∨ lease ∈ leases ∨ lease = b := by
        intro lease inside
        obtain ⟨i, read⟩ := List.getElem?_of_mem inside
        rcases add_lease_read now _ _ _ _ _ _ _ read with empty | ⟨old, _⟩ | fresh
        · exact Or.inl empty
        · exact Or.inr (Or.inl (List.mem_of_getElem? old))
        · exact Or.inr (Or.inr (fresh.trans (fresh_again now b each.1.1 each.1.2)))
      have found : a ∈ (addLease now (some b.mac) b.nip (b.expires - now) (some b.hostname) leases).1 ∨ a ∈ rest ∨
        a = emptyLease := by
        rw [regrant_cons] at member
        split at member
        · rename_i run
          rw [run]
          exact Or.inl member
        · rename_i run
          rw [run]
          rcases ih _ each.2 member with empty | inside | later
          · exact Or.inr (Or.inr empty)
          · exact Or.inl inside
          · exact Or.inr (Or.inl later)
      rcases found with inside | later | empty
      · rcases one a inside with empty | old | rfl
        · exact Or.inl empty
        · exact Or.inr (Or.inl old)
        · exact Or.inr (Or.inr List.mem_cons_self)
      · exact Or.inr (Or.inr (List.mem_cons_of_mem _ later))
      · exact Or.inl empty

-- Neither the client nor the address of b is that of a, if a is a client's.
def Apart (a b : Lease) : Prop := a.mac ≠ 0 → matchesLease (some b.mac) b.nip a = false

theorem regrant_stored (now : Nat) (wanted : List Lease) (leases : Table) (a : Lease) (positive : 0 < now)
    (each : ∀ b ∈ wanted, Storable b ∧ now < b.expires) (apart : wanted.Pairwise Apart)
    (room : busy now leases + wanted.length ≤ leases.length) (member : a ∈ wanted) (client : a.mac ≠ 0) :
    a ∈ regrant now wanted leases := by
  induction wanted generalizing leases with
  | nil => cases member
  | cons b rest ih =>
      rw [List.forall_mem_cons] at each
      rw [List.length_cons] at room
      obtain ⟨first, others⟩ := List.pairwise_cons.mp apart
      obtain ⟨i, taken⟩ := add_lease_room now (some b.mac) b.nip (b.expires - now) (some b.hostname) leases positive
        (by omega)
      have grown := busy_bound now (some b.mac) b.nip (b.expires - now) (some b.hostname) leases positive
      have same := add_lease_length now (some b.mac) b.nip (b.expires - now) (some b.hostname) leases
      rw [regrant_taken now b rest leases i taken]
      rcases List.mem_cons.mp member with rfl | later
      · have slot := add_lease_stored now _ _ _ _ _ i taken
        rw [fresh_again now a each.1.1 each.1.2] at slot
        exact regrant_kept now rest _ a (List.mem_of_getElem? slot) (by omega) fun b inside => first b inside client
      · exact ih _ each.2 others (by omega) later

theorem unique_apart (leases : Table) (macs : Unique macKey leases) (nips : Unique nipKey leases) :
    leases.Pairwise Apart := by
  rw [List.pairwise_iff_getElem]
  intro i j first second order client
  have readI : leases[i]? = some leases[i] := List.getElem?_eq_getElem first
  have readJ : leases[j]? = some leases[j] := List.getElem?_eq_getElem second
  rw [Bool.eq_false_iff]
  intro hit
  rcases (matches_lease _ _ _).mp hit with same | ⟨address, same⟩
  · have mac : leases[j].mac = leases[i].mac := Option.some.inj same
    have := macs i j _ _ _ readI readJ ((mac_key _ _).mpr ⟨rfl, client⟩) ((mac_key _ _).mpr ⟨mac, client⟩)
    omega
  · have := nips i j _ _ _ readI readJ ((nip_key _ _).mpr ⟨same, address⟩) ((nip_key _ _).mpr ⟨rfl, address⟩)
    omega

-- The table of a server that was stopped and started again, from the file alone
def restarted (config : Config) (stopped started : Nat) (leases : Table) : Table :=
  readLeases config started (List.replicate leases.length emptyLease) (writeLeases stopped leases)

theorem restarted_regrant (config : Config) (stopped started : Nat) (leases : Table) (order : stopped ≤ started)
    (early : started ≤ stopped + 12 * 60 * 60) (soon : started < 0x80000000) (storable : ∀ lease ∈ leases,
    Storable lease) (bound : ∀ lease ∈ leases, lease.expires < 0x80000000) :
    restarted config stopped started leases =
      regrant started (leases.filter fun lease => decide (Survives config started lease))
        (List.replicate leases.length emptyLease) := by
  obtain ⟨header, body⟩ := write_parse stopped leases storable
  have length : ¬ (writeLeases stopped leases).length < 8 := by
    rw [writeLeases, List.length_append, encode_length]
    omega
  have written : decode (encode 8 stopped) = stopped := decode_encode 8 stopped (by omega)
  rw [restarted, readLeases, if_neg length, header, written, body]
  dsimp only
  rw [if_neg (by omega)]
  rw [wanted_stored config stopped started leases order soon bound, regrant]

theorem restarted_mem (config : Config) (stopped started : Nat) (leases : Table) (positive : 0 < started)
    (order : stopped ≤ started) (early : started ≤ stopped + 12 * 60 * 60) (soon : started < 0x80000000)
      (storable : ∀ lease ∈ leases, Storable lease) (bound : ∀ lease ∈ leases, lease.expires < 0x80000000)
        (macs : Unique macKey leases) (nips : Unique nipKey leases) (lease : Lease) (client : lease.mac ≠ 0) :
    lease ∈ restarted config stopped started leases ↔ lease ∈ leases ∧ Survives config started lease := by
  rw [restarted_regrant config stopped started leases order early soon storable bound]
  have each : ∀ b ∈ leases.filter fun lease => decide (Survives config started lease), Storable b ∧
    started < b.expires := by
    intro b member
    obtain ⟨inside, survives⟩ := List.mem_filter.mp member
    exact ⟨storable b inside, (of_decide_eq_true survives).2.2⟩
  constructor
  · intro member
    rcases regrant_origin started _ _ lease each member with rfl | fresh | old
    · exact absurd rfl client
    · rw [List.eq_of_mem_replicate fresh] at client
      exact absurd rfl client
    · simpa using old
  · intro ⟨member, survives⟩
    apply regrant_stored started _ _ lease positive each
    · exact (unique_apart leases macs nips).filter _
    · have none : busy started (List.replicate leases.length emptyLease) = 0 := by
        rw [busy, List.countP_replicate, if_neg]
        simpa [emptyLease] using positive.ne'
      rw [none, Nat.zero_add, List.length_replicate]
      exact List.length_filter_le _ _
    · simpa using ⟨member, survives⟩
    · exact client

end Ftm50s.Udhcpd
