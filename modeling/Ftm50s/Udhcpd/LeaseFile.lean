import Ftm50s.Lib.BigEndian
import Ftm50s.Udhcpd.Server

set_option autoImplicit false

namespace Ftm50s.Udhcpd

open Lib.Text Lib.BigEndian Lib.SlotTable

-- A lease as it lies in the file, its time the one that remains: four bytes each for
-- the time and the address in network order, six for the hardware address, twenty
-- for the name with its NULs, and two of padding
def leaseRecord (lease : Lease) : Bytes :=
  encode 4 lease.expires ++ (encode 4 lease.nip ++ (encode 6 lease.mac.toNat ++ (padTo 20 0 lease.hostname ++ [0, 0])))

def parseRecord (bytes : Bytes) : Lease :=
  ⟨decode (bytes.take 4), decode ((bytes.drop 4).take 4), BitVec.ofNat 48 (decode ((bytes.drop 8).take 6)),
    cstr ((bytes.drop 14).take 20)⟩

-- The difference of two unsigned times, and zero where it is negative as a signed one
def remaining (curr expires : Nat) : Nat :=
  let left := (expires + 0x100000000 - curr) % 0x100000000
  if 0x80000000 ≤ left then 0 else left

def writeLeases (curr : Nat) (leases : Table) : Bytes :=
  encode 8 curr ++
    (leases.filter fun lease => lease.nip != 0).flatMap fun lease => leaseRecord { lease with expires := remaining curr lease.expires }

-- full_read of whole records; a rest that is shorter ends the loop.
def records : Nat → Bytes → List Lease
  | 0, _ => []
  | fuel + 1, bytes => if bytes.length < 36 then [] else parseRecord (bytes.take 36) :: records fuel (bytes.drop 36)

def parseLeases (bytes : Bytes) : List Lease := records bytes.length bytes

-- What is left of a stored time, none where it is not positive as a signed one
def leftOver (passed expires : Nat) : Option Nat :=
  let left := (expires + 0x100000000 - passed) % 0x100000000
  if left = 0 ∨ 0x80000000 ≤ left then none else some left

-- A record that the loop of read_leases does not skip, with the time that is left
def wanted (config : Config) (passed : Nat) (lease : Lease) : Option Lease :=
  if config.startIp ≤ lease.nip ∧ lease.nip ≤ config.endIp then
    (leftOver passed lease.expires).map fun left => { lease with expires := left }
  else none

-- One add_lease after the other, until there is no room
def addAll (now : Nat) : List Lease → Table → Table
  | [], leases => leases
  | lease :: rest, leases =>
      match addLease now (some lease.mac) lease.nip lease.expires (some lease.hostname) leases with
      | (next, none) => next
      | (next, some _) => addAll now rest next

def readLeases (config : Config) (now : Nat) (leases : Table) (file : Bytes) : Table :=
  if file.length < 8 then leases
  else
    let writtenAt := decode (file.take 8)
    if now < writtenAt ∨ 12 * 60 * 60 < now - writtenAt then leases
    else addAll now ((parseLeases (file.drop 8)).filterMap (wanted config (now - writtenAt))) leases

-- A lease that the table can hold: every name in it went through storedName.
structure Storable (lease : Lease) : Prop where
  expires : lease.expires < 0x100000000
  nip : lease.nip < 0x100000000
  hostname : storedName (some lease.hostname) = lease.hostname

theorem stored_name_short (hostname : Option Bytes) : (storedName hostname).length ≤ 19 := by
  rw [storedName, List.length_map, List.length_take]
  omega

theorem stored_name_clean (hostname : Option Bytes) : ∀ c ∈ storedName hostname, 32 ≤ c ∧ c ≤ 126 := by
  intro c member
  obtain ⟨b, _, rfl⟩ := List.mem_map.mp member
  by_cases odd : (b < 32 || 126 < b) = true
  · rw [if_pos odd]
    decide
  · rw [if_neg odd]
    simpa using odd

theorem stored_name_again (hostname : Option Bytes) :
    storedName (some (storedName hostname)) = storedName hostname := by
  have clean := stored_name_clean hostname
  have nul : (0 : UInt8) ∉ storedName hostname := fun member => absurd (clean 0 member).1 (by decide)
  rw [storedName, Option.getD_some, cstr_plain _ nul, List.take_of_length_le (stored_name_short hostname)]
  have same : ∀ c ∈ storedName hostname, (if (c < 32 || 126 < c) = true then (94 : UInt8) else c) = c := by
    intro c member
    obtain ⟨low, high⟩ := clean c member
    rw [if_neg]
    simpa using ⟨low, high⟩
  rw [List.map_congr_left same, List.map_id']

theorem storable_name (lease : Lease) (storable : Storable lease) :
    lease.hostname.length ≤ 19 ∧ ∀ c ∈ lease.hostname, 32 ≤ c ∧ c ≤ 126 := by
  rw [← storable.hostname]
  exact ⟨stored_name_short _, stored_name_clean _⟩

theorem record_length (lease : Lease) (short : lease.hostname.length ≤ 20) : (leaseRecord lease).length = 36 := by
  simp only [leaseRecord, List.length_append, encode_length, padTo, List.length_replicate, List.length_cons,
    List.length_nil]
  omega

theorem padded_name (width : Nat) (name : Bytes) (nul : (0 : UInt8) ∉ name) : cstr (padTo width 0 name) = name := by
  have clean : ∀ c ∈ name, (c != 0) = true := by
    intro c member
    rw [bne_iff_ne]
    rintro rfl
    exact nul member
  rw [padTo, cstr, List.takeWhile_append_of_pos clean, List.takeWhile_replicate]
  simp

theorem parse_record (lease : Lease) (storable : Storable lease) : parseRecord (leaseRecord lease) = lease := by
  obtain ⟨short, clean⟩ := storable_name lease storable
  have nul : (0 : UInt8) ∉ lease.hostname := fun member => absurd (clean 0 member).1 (by decide)
  have expires := encode_length 4 lease.expires
  have nip := encode_length 4 lease.nip
  have mac := encode_length 6 lease.mac.toNat
  have name : (padTo 20 0 lease.hostname).length = 20 := by
    rw [padTo, List.length_append, List.length_replicate]
    omega
  have first : (leaseRecord lease).drop 4 =
      encode 4 lease.nip ++ (encode 6 lease.mac.toNat ++ (padTo 20 0 lease.hostname ++ [0, 0])) :=
      List.drop_left' expires
  have second : (leaseRecord lease).drop 8 = encode 6 lease.mac.toNat ++ (padTo 20 0 lease.hostname ++ [0, 0]) := by
    rw [show 8 = 4 + 4 from rfl, ← List.drop_drop, first, List.drop_left' nip]
  have third : (leaseRecord lease).drop 14 = padTo 20 0 lease.hostname ++ [0, 0] := by
    rw [show 14 = 8 + 6 from rfl, ← List.drop_drop, second, List.drop_left' mac]
  rw [parseRecord, first, second, third, List.take_left' nip, List.take_left' mac, List.take_left' name, leaseRecord,
    List.take_left' expires, decode_encode 4 _ storable.expires, decode_encode 4 _ storable.nip,
    decode_encode 6 _ lease.mac.isLt, padded_name 20 _ nul, BitVec.ofNat_toNat, BitVec.setWidth_eq]

theorem records_cons (fuel : Nat) (lease : Lease) (rest : Bytes) (storable : Storable lease) :
    records (fuel + 1) (leaseRecord lease ++ rest) = lease :: records fuel rest := by
  have length := record_length lease (by have := (storable_name lease storable).1; omega)
  rw [records, if_neg (by rw [List.length_append]; omega), List.take_left' length, List.drop_left' length,
    parse_record lease storable]

theorem records_all (leases : List Lease) (fuel : Nat) (storable : ∀ lease ∈ leases, Storable lease)
    (enough : leases.length ≤ fuel) :
    records fuel (leases.flatMap leaseRecord) = leases := by
  induction leases generalizing fuel with
  | nil => cases fuel <;> rfl
  | cons lease rest ih =>
      rw [List.forall_mem_cons] at storable
      obtain ⟨less, rfl⟩ := Nat.exists_eq_add_of_lt (show 0 < fuel by rw [List.length_cons] at enough; omega)
      rw [Nat.zero_add, List.flatMap_cons, records_cons _ _ _ storable.1,
        ih less storable.2 (by rw [List.length_cons] at enough; omega)]

theorem records_fit (leases : List Lease) (storable : ∀ lease ∈ leases, Storable lease) :
    leases.length ≤ (leases.flatMap leaseRecord).length := by
  induction leases with
  | nil => rfl
  | cons lease rest ih =>
      rw [List.forall_mem_cons] at storable
      have short := (storable_name lease storable.1).1
      have length := record_length lease (by omega)
      have others := ih storable.2
      rw [List.flatMap_cons, List.length_append, List.length_cons]
      omega

-- The leases as write_leases stores them
def stored (curr : Nat) (leases : Table) : List Lease :=
  (leases.filter fun lease => lease.nip != 0).map fun lease => { lease with expires := remaining curr lease.expires }

theorem remaining_bound (curr expires : Nat) : remaining curr expires < 0x80000000 := by
  rw [remaining]
  split <;> omega

theorem write_parse (curr : Nat) (leases : Table) (storable : ∀ lease ∈ leases, Storable lease) :
    (writeLeases curr leases).take 8 = encode 8 curr ∧ parseLeases ((writeLeases curr leases).drop 8) = stored curr leases := by
  have header := encode_length 8 curr
  have text : writeLeases curr leases = encode 8 curr ++ (stored curr leases).flatMap leaseRecord := by
    rw [writeLeases, stored, List.flatMap_map]
  have each : ∀ lease ∈ stored curr leases, Storable lease := by
    intro lease member
    obtain ⟨old, inside, rfl⟩ := List.mem_map.mp member
    have before := storable old (List.mem_filter.mp inside).1
    exact ⟨by have := remaining_bound curr old.expires; simp only; omega, before.nip, before.hostname⟩
  rw [text, List.take_left' header, List.drop_left' header]
  exact ⟨rfl, records_all _ _ each (records_fit _ each)⟩

end Ftm50s.Udhcpd
