import Ftm50s.Lib.SlotTable
import Ftm50s.Lib.Text

set_option autoImplicit false

namespace Ftm50s.Udhcpd

open Lib.Text Lib.SlotTable

abbrev Mac := BitVec 48

-- struct dyn_lease. Addresses are kept in host order; zero is no address, and a
-- lease without a hardware address reserves its address for nobody.
structure Lease where
  expires : Nat
  nip : Nat
  mac : Mac
  hostname : Bytes
deriving DecidableEq, Repr

def emptyLease : Lease := ⟨0, 0, 0, []⟩

-- g_leases
abbrev Table := List Lease

-- The loop over g_leases from slot i on, with oldest_time and oldest_lease so far
def oldestFrom (i oldestTime : Nat) (oldest : Option Nat) : Table → Option Nat
  | [] => oldest
  | lease :: rest =>
      if lease.expires < oldestTime then oldestFrom (i + 1) lease.expires (some i) rest
      else oldestFrom (i + 1) oldestTime oldest rest

def oldestExpiredLease (now : Nat) (leases : Table) : Option Nat := oldestFrom 0 now none leases

def matchesLease (chaddr : Option Mac) (yiaddr : Nat) (lease : Lease) : Bool :=
  decide (chaddr = some lease.mac) || (yiaddr != 0 && lease.nip == yiaddr)

def clearLeases (chaddr : Option Mac) (yiaddr : Nat) (leases : Table) : Table :=
  leases.map fun lease => if matchesLease chaddr yiaddr lease then emptyLease else lease

-- safe_strncpy into hostname[20] and the loop behind it
def storedName (hostname : Option Bytes) : Bytes :=
  ((cstr (hostname.getD [])).take 19).map fun c => if c < 32 || 126 < c then 94 else c

-- leasetime_t has 32 bits.
def freshLease (now : Nat) (chaddr : Option Mac) (yiaddr leasetime : Nat) (hostname : Option Bytes) : Lease :=
  ⟨(now + leasetime) % 0x100000000, yiaddr, chaddr.getD 0, storedName hostname⟩

-- The slot that took the lease, if there was one
def addLease (now : Nat) (chaddr : Option Mac) (yiaddr leasetime : Nat) (hostname : Option Bytes) (leases : Table) :
    Table × Option Nat :=
  let cleared := clearLeases chaddr yiaddr leases
  match oldestExpiredLease now cleared with
  | none => (cleared, none)
  | some i => (cleared.set i (freshLease now chaddr yiaddr leasetime hostname), some i)

def isExpiredLease (now : Nat) (lease : Lease) : Bool := decide (lease.expires < now)

def findLeaseByNip (nip : Nat) (leases : Table) : Option Lease := leases.find? fun lease => decide (lease.nip = nip)

def macKey (lease : Lease) : Option Mac := if lease.mac = 0 then none else some lease.mac

def nipKey (lease : Lease) : Option Nat := if lease.nip = 0 then none else some lease.nip

theorem key_unless_zero {α : Type} [DecidableEq α] (zero value key : α) :
    (if value = zero then none else some value) = some key ↔ value = key ∧ key ≠ zero := by
  split
  · rename_i same
    rw [same]
    constructor
    · intro absent
      cases absent
    · intro both
      exact absurd both.1.symm both.2
  · rename_i nonzero
    rw [Option.some.injEq]
    constructor
    · intro same
      exact ⟨same, same ▸ nonzero⟩
    · exact And.left

theorem mac_key (lease : Lease) (mac : Mac) : macKey lease = some mac ↔ lease.mac = mac ∧ mac ≠ 0 :=
  key_unless_zero 0 lease.mac mac

theorem nip_key (lease : Lease) (nip : Nat) : nipKey lease = some nip ↔ lease.nip = nip ∧ nip ≠ 0 :=
  key_unless_zero 0 lease.nip nip

theorem oldest_from_some (i oldestTime : Nat) (oldest : Option Nat) (leases : Table) (k : Nat)
    (found : oldestFrom i oldestTime oldest leases = some k) :
    oldest = some k ∨ ∃ j lease, k = i + j ∧ leases[j]? = some lease ∧ lease.expires < oldestTime := by
  induction leases generalizing i oldestTime oldest with
  | nil => exact Or.inl found
  | cons lease rest ih =>
      rw [oldestFrom] at found
      split at found
      · rename_i earlier
        rcases ih _ _ _ found with here | ⟨j, other, place, read, before⟩
        · exact Or.inr ⟨0, lease, (Option.some.inj here).symm, rfl, earlier⟩
        · exact Or.inr ⟨j + 1, other, by omega, read, by omega⟩
      · rcases ih _ _ _ found with before | ⟨j, other, place, read, before⟩
        · exact Or.inl before
        · exact Or.inr ⟨j + 1, other, by omega, read, before⟩

theorem oldest_from_none (i oldestTime : Nat) (oldest : Option Nat) (leases : Table)
    (absent : oldestFrom i oldestTime oldest leases = none) : oldest = none ∧ ∀ lease ∈ leases,
    oldestTime ≤ lease.expires := by
  induction leases generalizing i oldestTime oldest with
  | nil => exact ⟨absent, by simp⟩
  | cons lease rest ih =>
      rw [oldestFrom] at absent
      split at absent
      · cases (ih _ _ _ absent).1
      · obtain ⟨empty, others⟩ := ih _ _ _ absent
        exact ⟨empty, List.forall_mem_cons.mpr ⟨by omega, others⟩⟩

theorem oldest_expired_some (now : Nat) (leases : Table) (i : Nat) (found : oldestExpiredLease now leases = some i) :
    ∃ lease, leases[i]? = some lease ∧ lease.expires < now := by
  rcases oldest_from_some 0 now none leases i found with absent | ⟨j, lease, place, read, before⟩
  · cases absent
  · obtain rfl : i = j := by omega
    exact ⟨lease, read, before⟩

theorem oldest_expired_none (now : Nat) (leases : Table) (absent : oldestExpiredLease now leases = none) :
    ∀ lease ∈ leases, now ≤ lease.expires := (oldest_from_none 0 now none leases absent).2

theorem matches_lease (chaddr : Option Mac) (yiaddr : Nat) (lease : Lease) :
    matchesLease chaddr yiaddr lease = true ↔ chaddr = some lease.mac ∨ (yiaddr ≠ 0 ∧ lease.nip = yiaddr) := by
  simp [matchesLease]

theorem clear_leases_read (chaddr : Option Mac) (yiaddr : Nat) (leases : Table) (i : Nat) (lease : Lease)
    (read : (clearLeases chaddr yiaddr leases)[i]? = some lease) :
    lease = emptyLease ∨ (leases[i]? = some lease ∧ matchesLease chaddr yiaddr lease = false) := by
  rw [clearLeases, List.getElem?_map, Option.map_eq_some_iff] at read
  obtain ⟨old, slot, rfl⟩ := read
  cases hit : matchesLease chaddr yiaddr old with
  | true => exact Or.inl (by simp)
  | false => exact Or.inr (by simp [slot, hit])

theorem clear_leases_kept (chaddr : Option Mac) (yiaddr : Nat) (leases : Table) (i : Nat) (lease : Lease)
    (read : leases[i]? = some lease) (other : matchesLease chaddr yiaddr lease = false) :
    (clearLeases chaddr yiaddr leases)[i]? = some lease := by
  rw [clearLeases, List.getElem?_map, read]
  simp [other]

theorem clear_leases_thinned {κ : Type} (key : Lease → Option κ) (chaddr : Option Mac) (yiaddr : Nat) (leases : Table)
    (free : key emptyLease = none) : Thinned key leases (clearLeases chaddr yiaddr leases) := by
  apply thinned_map
  intro lease k hit
  split at hit
  · rw [free] at hit
    cases hit
  · rename_i other
    rw [if_neg other]

section Add

variable (now : Nat) (chaddr : Option Mac) (yiaddr leasetime : Nat) (hostname : Option Bytes) (leases : Table)

theorem add_lease_cases :
    ((∀ lease ∈ clearLeases chaddr yiaddr leases, now ≤ lease.expires) ∧
        addLease now chaddr yiaddr leasetime hostname leases = (clearLeases chaddr yiaddr leases, none)) ∨
      ∃ i old, (clearLeases chaddr yiaddr leases)[i]? = some old ∧ old.expires < now ∧
        addLease now chaddr yiaddr leasetime hostname leases =
          ((clearLeases chaddr yiaddr leases).set i (freshLease now chaddr yiaddr leasetime hostname), some i) := by
  cases found : oldestExpiredLease now (clearLeases chaddr yiaddr leases) with
  | none =>
      refine Or.inl ⟨oldest_expired_none now _ found, ?_⟩
      simp only [addLease, found]
  | some i =>
      obtain ⟨old, slot, before⟩ := oldest_expired_some now _ i found
      refine Or.inr ⟨i, old, slot, before, ?_⟩
      simp only [addLease, found]

theorem add_lease_read (i : Nat) (lease : Lease)
    (read : (addLease now chaddr yiaddr leasetime hostname leases).1[i]? = some lease) :
    lease = emptyLease ∨ (leases[i]? = some lease ∧ matchesLease chaddr yiaddr lease = false) ∨
      lease = freshLease now chaddr yiaddr leasetime hostname := by
  have cleared : (clearLeases chaddr yiaddr leases)[i]? = some lease →
      lease = emptyLease ∨ (leases[i]? = some lease ∧ matchesLease chaddr yiaddr lease = false) :=
    clear_leases_read chaddr yiaddr leases i lease
  rcases add_lease_cases now chaddr yiaddr leasetime hostname leases with ⟨_, run⟩ | ⟨j, old, _, _, run⟩
  · rw [run] at read
    exact (cleared read).imp id Or.inl
  · rw [run] at read
    rcases set_read _ _ _ _ _ read with ⟨_, fresh, _⟩ | ⟨_, slot⟩
    · exact Or.inr (Or.inr fresh)
    · exact (cleared slot).imp id Or.inl

theorem add_lease_kept (i : Nat) (lease : Lease) (read : leases[i]? = some lease)
    (other : matchesLease chaddr yiaddr lease = false) (live : now ≤ lease.expires) :
    (addLease now chaddr yiaddr leasetime hostname leases).1[i]? = some lease := by
  have kept := clear_leases_kept chaddr yiaddr leases i lease read other
  rcases add_lease_cases now chaddr yiaddr leasetime hostname leases with ⟨_, run⟩ | ⟨j, old, slot, before, run⟩
  · rwa [run]
  · have apart : j ≠ i := by
      rintro rfl
      rw [kept] at slot
      obtain rfl := Option.some.inj slot
      omega
    rw [run, List.getElem?_set_ne apart, kept]

theorem add_lease_unique {κ : Type} (key : Lease → Option κ) (free : key emptyLease = none) (unique : Unique key leases)
    (cleared : ∀ k, key (freshLease now chaddr yiaddr leasetime hostname) = some k → ∀ lease, key lease = some k →
    matchesLease chaddr yiaddr lease = true) : Unique key (addLease now chaddr yiaddr leasetime hostname leases).1 := by
  have thin := clear_leases_thinned key chaddr yiaddr leases free
  have before := unique_thinned key leases _ unique thin
  rcases add_lease_cases now chaddr yiaddr leasetime hostname leases with ⟨_, run⟩ | ⟨i, old, _, _, run⟩
  · rwa [run]
  · rw [run]
    apply unique_set key _ _ _ before
    intro k hit j lease read same
    rcases clear_leases_read _ _ _ _ _ read with empty | ⟨_, other⟩
    · rw [empty, free] at same
      cases same
    · rw [cleared k hit lease same] at other
      cases other

theorem add_lease_macs (unique : Unique macKey leases) :
    Unique macKey (addLease now chaddr yiaddr leasetime hostname leases).1 := by
  apply add_lease_unique now chaddr yiaddr leasetime hostname leases macKey rfl unique
  intro k hit lease same
  obtain ⟨mac, nonzero⟩ := (mac_key _ _).mp hit
  obtain ⟨other, _⟩ := (mac_key _ _).mp same
  rw [matches_lease]
  cases chaddr with
  | none => exact absurd mac.symm nonzero
  | some client =>
      have given : client = k := mac
      exact Or.inl (by rw [given, other])

theorem add_lease_nips (unique : Unique nipKey leases) :
    Unique nipKey (addLease now chaddr yiaddr leasetime hostname leases).1 := by
  apply add_lease_unique now chaddr yiaddr leasetime hostname leases nipKey rfl unique
  intro k hit lease same
  obtain ⟨nip, nonzero⟩ := (nip_key _ _).mp hit
  obtain ⟨other, _⟩ := (nip_key _ _).mp same
  rw [matches_lease]
  have given : yiaddr = k := nip
  exact Or.inr ⟨by rwa [given], by rw [given, other]⟩

theorem add_lease_stored (i : Nat) (taken : (addLease now chaddr yiaddr leasetime hostname leases).2 = some i) :
    (addLease now chaddr yiaddr leasetime hostname leases).1[i]? =
    some (freshLease now chaddr yiaddr leasetime hostname) := by
  rcases add_lease_cases now chaddr yiaddr leasetime hostname leases with ⟨_, run⟩ | ⟨j, old, slot, _, run⟩
  · rw [run] at taken
    cases taken
  · rw [run] at taken ⊢
    obtain rfl : j = i := Option.some.inj taken
    have inside : j < (clearLeases chaddr yiaddr leases).length := (List.getElem?_eq_some_iff.mp slot).1
    simp [inside]

theorem add_lease_taken (lease : Lease) (member : lease ∈ leases) (positive : 0 < now)
    (room : matchesLease chaddr yiaddr lease = true ∨ lease.expires < now) :
    (addLease now chaddr yiaddr leasetime hostname leases).2 ≠ none := by
  rcases add_lease_cases now chaddr yiaddr leasetime hostname leases with ⟨busy, _⟩ | ⟨j, old, _, _, run⟩
  · -- Whatever was cleared counts as expired long ago.
    have free : ∃ slot ∈ clearLeases chaddr yiaddr leases, slot.expires < now := by
      refine ⟨_, List.mem_map_of_mem member, ?_⟩
      split
      · exact positive
      · rename_i other
        exact room.resolve_left other
    obtain ⟨slot, inside, before⟩ := free
    have := busy slot inside
    omega
  · rw [run]
    simp

theorem add_lease_length : (addLease now chaddr yiaddr leasetime hostname leases).1.length = leases.length := by
  rcases add_lease_cases now chaddr yiaddr leasetime hostname leases with ⟨_, run⟩ | ⟨j, old, _, _, run⟩ <;>
    rw [run] <;> simp [clearLeases]

end Add

end Ftm50s.Udhcpd
