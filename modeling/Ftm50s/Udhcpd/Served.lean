import Ftm50s.Udhcpd.Configured
import Ftm50s.Udhcpd.Promises

set_option autoImplicit false

namespace Ftm50s.Udhcpd

open Lib.Text Ftm50s.Cgi Ftm50s.Dhcp

section Form

variable (str2nip : Bytes → Option Nat) (aton : Bytes → Option Mac)

theorem static_of_form (settings : Settings) (pair : Mac × Nat)
    (member : pair ∈ (confOf str2nip aton settings).staticLeases) :
    settings.static = ascii "true" ∧ ∃ lease ∈ settings.leases, str2nip lease.2 = some pair.2 := by
  simp only [confOf] at member
  split at member
  · rename_i static
    obtain ⟨lease, inside, read⟩ := List.mem_filterMap.mp member
    obtain ⟨mac, _, rest⟩ := Option.bind_eq_some_iff.mp read
    obtain ⟨nip, address, rfl⟩ := Option.map_eq_some_iff.mp rest
    exact ⟨static, lease, inside, address⟩
  · cases member

theorem reserved_of_form (settings : Settings) (nip : Nat)
    (reserved : isNipReserved (confOf str2nip aton settings).staticLeases nip = true) :
    settings.static = ascii "true" ∧ ∃ lease ∈ settings.leases, str2nip lease.2 = some nip := by
  obtain ⟨pair, member, same⟩ := List.any_eq_true.mp reserved
  rw [beq_iff_eq] at same
  rw [← same]
  exact static_of_form str2nip aton settings pair member

theorem form_sane (bits : ∀ text nip, str2nip text = some nip → nip < 0x100000000) (settings : Settings)
    (start last : Nat) (first : str2nip settings.start = some start) (second : str2nip settings.last = some last)
      (positive : 0 < start) (order : start ≤ last) (serverNip : Nat) (base : Bool) :
      Sane (serverConfig (confOf str2nip aton settings) serverNip base) := by
  have low : (confOf str2nip aton settings).startIp = start := by rw [confOf, first]; rfl
  have high : (confOf str2nip aton settings).endIp = last := by rw [confOf, second]; rfl
  constructor
  · rwa [serverConfig, low]
  · rwa [serverConfig, low, high]
  · rw [serverConfig, high]
    exact bits _ _ second
  · intro pair member
    obtain ⟨_, lease, _, address⟩ := static_of_form str2nip aton settings pair member
    exact bits _ _ address

-- The form bounds what the server promises: once it was applied, every address that
-- any client holds, after any packets and restarts, is in the range of the form or
-- one of its static leases.
theorem form_bounds_promises (bits : ∀ text nip, str2nip text = some nip → nip < 0x100000000) (req : Request)
    (settings : Settings) (gives : Gives req settings) (bare : Bare settings) (start last : Nat)
      (first : str2nip settings.start = some start) (second : str2nip settings.last = some last) (positive : 0 < start)
        (order : start ≤ last) (conf : Conf) (read : readConfig str2nip aton (udhcpdConf req) = some conf)
          (serverNip : Nat) (base : Bool) (world : World) (reached : Reachable (serverConfig conf serverNip base)
            (maxLeases conf) world) (mac : Mac) (promise : Promise) (client : mac ≠ 0) (given : world.promises mac =
            some promise) (live : world.clock < promise.deadline) :
    (start ≤ promise.nip ∧ promise.nip ≤ last) ∨
      (settings.static = ascii "true" ∧ ∃ lease ∈ settings.leases, str2nip lease.2 = some promise.nip) := by
  obtain rfl : confOf str2nip aton settings = conf :=
    Option.some.inj ((conf_read str2nip aton req settings gives bare).symm.trans read)
  have sane := form_sane str2nip aton bits settings start last first second positive order serverNip base
  have backed := reachable_backed _ _ sane world reached
  rcases backed.covers mac promise client given live with ⟨static, same⟩ | ⟨dynamic, reserved | ⟨lease, member, owner,
    nip, _⟩⟩
  · obtain ⟨reserved, _⟩ := static_reserved _ mac static
    rw [← same] at reserved
    exact Or.inr (reserved_of_form str2nip aton settings promise.nip reserved)
  · exact Or.inr (reserved_of_form str2nip aton settings promise.nip reserved)
  · have pool := backed.sound.pool lease member (by rwa [owner]) (by rwa [owner])
    have low : (confOf str2nip aton settings).startIp = start := by rw [confOf, first]; rfl
    have high : (confOf str2nip aton settings).endIp = last := by rw [confOf, second]; rfl
    rw [nip, InPool, serverConfig, low, high] at pool
    exact Or.inl pool

end Form

theorem quad_bits (text : Bytes) (nip : Nat) (read : quadNip text = some nip) : nip < 0x100000000 := by
  rw [quadNip] at read
  split at read
  · split at read
    · obtain rfl := Option.some.inj read
      omega
    · cases read
  · cases read

def officeConf : Conf := confOf quadNip colonMac officeSettings

def officeConfig : Config := serverConfig officeConf 0xC0A80001 false

def officeWorld : World :=
  step officeConfig ⟨List.replicate (maxLeases officeConf) emptyLease, fun _ => none, 1000⟩
    (.packet (quiet 1000) (discover 1))

theorem office_reached : Reachable officeConfig (maxLeases officeConf) officeWorld :=
  .next _ _ (.start 1000 (by decide)) (quiet_punctual _ 1000 1000 (by decide) (by decide) (by decide))

theorem form_bounds_promises_office : officeWorld.promises 1 = some ⟨0xC0A80014, 1060⟩ ∧
    ((0xC0A80014 ≤ 0xC0A80014 ∧ 0xC0A80014 ≤ 0xC0A800FE) ∨
      (officeSettings.static = ascii "true" ∧ ∃ lease ∈ officeSettings.leases, quadNip lease.2 = some 0xC0A80014)) := by
  have given : officeWorld.promises 1 = some ⟨0xC0A80014, 1060⟩ := by decide +kernel
  have read := conf_read quadNip colonMac officeRequest officeSettings office_gives office_bare
  exact ⟨given, form_bounds_promises quadNip colonMac quad_bits officeRequest officeSettings office_gives office_bare 0xC0A80014
    0xC0A800FE (by decide) (by decide) (by decide)
      (by decide) officeConf read 0xC0A80001 false officeWorld office_reached 1 _
    (by decide) given (by decide +kernel)⟩

end Ftm50s.Udhcpd
