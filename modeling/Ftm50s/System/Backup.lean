import Ftm50s.Lib.Text

set_option autoImplicit false

namespace Ftm50s.System

open Lib.Text

abbrev Path := List String

abbrev Tree := Path → Option Bytes

-- tar names its members without the leading slash. A directory brings every
-- file below it; a name that is missing is reported and skipped.
def tarCreate (names : List Path) (files : Tree) : Tree := fun path =>
  if names.any (·.isPrefixOf path) then files path else none

def tarExtract (archive : Tree) (directory : Path) (files : Tree) : Tree := fun path =>
  if directory.isPrefixOf path then (archive (path.drop directory.length)).or (files path) else files path

def copy (source target : Path) (files : Tree) : Tree := fun path =>
  if path = target then (files source).or (files path) else files path

def removeAll (directory : Path) (files : Tree) : Tree := fun path =>
  if directory.isPrefixOf path then none else files path

def archivedNames : List Path :=
  [["etc", "httpd.conf"], ["etc", "service"], ["etc", "passwd"], ["etc", "network", "interfaces"],
    ["etc", "resolv.conf"],
   ["etc", "udhcpd.conf"]]

def configArchiveSh (files : Tree) : Tree := tarCreate archivedNames files

def restoredNames : List Path :=
  [["etc", "httpd.conf"], ["etc", "passwd"], ["etc", "resolv.conf"], ["etc", "udhcpd.conf"],
    ["etc", "network", "interfaces"],
   ["etc", "service", "iptables"], ["etc", "service", "pppd"], ["etc", "service", "secuwayssl"],
   ["etc", "service", "ssld"],
   ["etc", "service", "syslogd"], ["etc", "service", "udhcpd"], ["etc", "service", "vsftpd"]]

def unpacked (path : Path) : Path := "tmp" :: path

def configUnzipSh (archive files : Tree) : Tree :=
  removeAll ["tmp", "etc"]
    (restoredNames.foldl (fun files path => copy (unpacked path) path files) (tarExtract archive ["tmp"] files))

-- What the set commands write: FTMC_SaveProfileConfig, FTMC_Network, FTMC_DHCP,
-- FTMC_Netfilter and its flag, and the flag of the two VPN clients.
def settings : List Path :=
  [["etc", "httpd.conf"], ["etc", "network", "interfaces"], ["etc", "udhcpd.conf"], ["etc", "iptables"],
   ["etc", "service", "iptables"], ["etc", "service", "ssld"]]

def Restores (a b : Tree) : Prop := ∀ path ∈ settings, configUnzipSh (configArchiveSh a) b path = a path

theorem copies_read (paths : List Path) (files : Tree) (path : Path) (outside : ∀ target ∈ paths, target.head? =
    some "etc") :
    paths.foldl (fun files path => copy (unpacked path) path files) files path =
      if path ∈ paths then (files (unpacked path)).or (files path) else files path := by
  induction paths generalizing files with
  | nil => rfl
  | cons target rest ih =>
      have later := ih (copy (unpacked target) target files) fun other member => outside other (by simp [member])
      -- no copy goes below tmp, so every source is as it was unpacked
      have source : copy (unpacked target) target files (unpacked path) = files (unpacked path) := by
        rw [copy, if_neg]
        intro same
        have head := outside target (by simp)
        rw [← same, unpacked, List.head?_cons, Option.some.injEq] at head
        exact absurd head (by decide)
      rw [List.foldl_cons, later, source]
      by_cases mine : path = target
      · subst mine
        have twice : (files (unpacked path)).or ((files (unpacked path)).or (files path)) = (files (unpacked path)).or
          (files path) := by
          rw [← Option.or_assoc, Option.or_self]
        simp [copy, twice]
      · simp [copy, mine]

theorem unzip_read (archive files : Tree) (path : Path) (below : path.head? = some "etc") :
    configUnzipSh archive files path =
      if path ∈ restoredNames then ((archive path).or (files (unpacked path))).or (files path) else files path := by
  obtain ⟨name, rest, rfl⟩ : ∃ name rest, path = name :: rest := by
    cases path with
    | nil => cases below
    | cons name rest => exact ⟨name, rest, rfl⟩
  obtain rfl : name = "etc" := Option.some.inj below
  have kept : List.isPrefixOf ["tmp", "etc"] ("etc" :: rest) = false := rfl
  have untouched : tarExtract archive ["tmp"] files ("etc" :: rest) = files ("etc" :: rest) := rfl
  have extracted : tarExtract archive ["tmp"] files (unpacked ("etc" :: rest)) =
      (archive ("etc" :: rest)).or (files (unpacked ("etc" :: rest))) := rfl
  rw [configUnzipSh, removeAll, kept, copies_read restoredNames _ _ (by decide), untouched, extracted]
  rfl

-- The firewall table is in neither list. Of the other settings a missing file
-- is the only one that does not travel.
theorem backup_restores (a b : Tree) :
    Restores a b ↔ a ["etc", "iptables"] = b ["etc", "iptables"] ∧
      ∀ path ∈ settings, path ≠ ["etc", "iptables"] → a path = none → b path = none ∧ b (unpacked path) = none := by
  have table : configUnzipSh (configArchiveSh a) b ["etc", "iptables"] = b ["etc", "iptables"] := by
    rw [unzip_read _ _ _ rfl, if_neg (by decide)]
  have other : ∀ path ∈ settings, path ≠ ["etc", "iptables"] →
      configUnzipSh (configArchiveSh a) b path = ((a path).or (b (unpacked path))).or (b path) := by
    intro path member different
    have both : path.head? = some "etc" ∧ path ∈ restoredNames ∧ archivedNames.any (·.isPrefixOf path) = true := by
      revert path
      decide
    rw [unzip_read _ _ path both.1, if_pos both.2.1, configArchiveSh, tarCreate, if_pos both.2.2]
  constructor
  · intro restores
    refine ⟨(restores _ (by decide)).symm.trans table, ?_⟩
    intro path member different absent
    have same := restores path member
    rw [other path member different, absent, Option.none_or, Option.or_eq_none_iff] at same
    exact same.symm
  · rintro ⟨tables, missing⟩ path member
    by_cases firewall : path = ["etc", "iptables"]
    · rw [firewall, table, tables]
    · rw [other path member firewall]
      cases found : a path with
      | some content => rfl
      | none =>
          obtain ⟨absent, clean⟩ := missing path member firewall found
          rw [absent, clean]
          rfl

def configured (location table : String) : Tree := fun path =>
  if path = ["etc", "iptables"] then some (ascii table) else if path ∈ settings then some (ascii location) else none

theorem backup_restores_location :
    Restores (configured "office" "*filter\nCOMMIT\n") (configured "lab" "*filter\nCOMMIT\n") := by
  apply (backup_restores _ _).mpr
  refine ⟨rfl, ?_⟩
  intro path member different absent
  simp [configured, different, member] at absent

theorem backup_loses_firewall :
    ¬ ∀ a b : Tree, (∀ path ∈ settings, (a path).isSome = true ∧ (b path).isSome = true) → Restores a b := by
  intro always
  have restores := always (configured "office" "-A INPUT -j DROP\n") (configured "office" "*filter\nCOMMIT\n")
    (by decide)
  have table := restores ["etc", "iptables"] (by decide)
  rw [unzip_read _ _ _ rfl, if_neg (by decide)] at table
  exact absurd table (by decide)

end Ftm50s.System
