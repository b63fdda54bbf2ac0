import Ftm50s.Cgi.Public

set_option autoImplicit false

namespace Ftm50s.Cgi

open Lib.Text Ftm50s.Ssid

inductive Service where
  | ftmcPublic | ftmcPage | ftmcMain | ftmcNetwork | ftmcDHCP | ftmcSSL | ftmcSSLPLUS | ftmcSECUWAYSSL
  | ftmcNetfilter | ftmcSyslog | ftmcSystem | ftmcLogout | ftmcOTA
deriving DecidableEq, Repr

def cmds : List (Bytes × Service) :=
  [(ascii "public", .ftmcPublic), (ascii "page", .ftmcPage), (ascii "main", .ftmcMain),
   (ascii "network", .ftmcNetwork), (ascii "dhcp", .ftmcDHCP), (ascii "ssl", .ftmcSSL),
   (ascii "sslplus", .ftmcSSLPLUS), (ascii "secuwayssl", .ftmcSECUWAYSSL), (ascii "firewall", .ftmcNetfilter),
   (ascii "syslog", .ftmcSyslog), (ascii "system", .ftmcSystem), (ascii "logout", .ftmcLogout), (ascii "ota", .ftmcOTA)]

-- One run of the CGI program: the name it was called under, the decoded query,
-- the profile files of that moment, and main's own reading of the clock. The
-- files are free in every visit, so whatever the services write in between is covered.
structure Visit where
  argv0 : Bytes
  req : Request
  env : Env
  files : Profile.Files
  xTime : Nat

inductive Outcome where
  | notSupported
  | answered (reply : PublicReply)
  | crashed
  | served (service : Service) (tag : Tag)
  | index

-- Of the services behind the check only FTMC_Logout touches the session pool.
def serviceShm (service : Service) (shm : Shm) (tag : Tag) : Shm :=
  match service with
  | .ftmcLogout => deleteSSID shm tag
  | _ => shm

def handle (shm : Shm) (visit : Visit) : Shm × Outcome :=
  match cmds.find? fun cmd => decide (cmd.1 = visit.argv0) with
  | none => (shm, .notSupported)
  | some (_, service) =>
      if service = .ftmcPublic then
        match ftmcPublic visit.env visit.files shm visit.req with
        | none => (shm, .crashed)
        | some (next, reply) => (next, .answered reply)
      else
        match getstr visit.req "ssid" with
        | none => (shm, .index)
        | some lpszSSID =>
            if sized : lpszSSID.length = 32 then
              let tag : Tag := ⟨lpszSSID, sized⟩
              let check := isValidSSID shm tag (timeT visit.xTime)
              if check.2 then
                (serviceShm service (saveSSID visit.env.creatable check.1 tag (timeT visit.xTime)).1 tag,
                  .served service tag)
              else (check.1, .index)
            else (shm, .index)

def runVisits (shm : Shm) (visits : List Visit) : Shm := visits.foldl (fun shm visit => (handle shm visit).1) shm

abbrev Event := Visit × Outcome

def history : Shm → List Visit → List Event
  | _, [] => []
  | shm, visit :: rest => (visit, (handle shm visit).2) :: history (handle shm visit).1 rest

def Quiet (outcome : Outcome) : Prop :=
  (∀ tag, outcome ≠ .answered (.issued tag)) ∧ ∀ service tag, outcome ≠ .served service tag

-- Everything a visit can do to the session pool, with the outcome seen outside.
inductive Effect (shm : Shm) (visit : Visit) : Shm → Outcome → Prop where
  | login (tag : Tag) (asked : getstr visit.req "cmd" = some (ascii "get_ssid"))
      (credentials : CredentialsMatch visit.env visit.files visit.req) :
      Effect shm visit (saveSSID visit.env.creatable shm tag (timeT visit.env.clock)).1 (.answered (.issued tag))
  | service (service : Service) (tag : Tag) (checked : service ≠ .ftmcPublic)
      (presented : getstr visit.req "ssid" = some tag.bytes)
      (valid : (isValidSSID shm tag (timeT visit.xTime)).2 = true) :
      Effect shm visit
        (serviceShm service
          (saveSSID visit.env.creatable (isValidSSID shm tag (timeT visit.xTime)).1 tag (timeT visit.xTime)).1 tag)
        (.served service tag)
  | refused (tag : Tag) : Effect shm visit (isValidSSID shm tag (timeT visit.xTime)).1 .index
  | idle (outcome : Outcome) (quiet : Quiet outcome) : Effect shm visit shm outcome

theorem quiet_index : Quiet .index := ⟨nofun, nofun⟩

theorem public_effect (shm next : Shm) (visit : Visit) (reply : PublicReply)
    (answer : ftmcPublic visit.env visit.files shm visit.req = some (next, reply)) :
    Effect shm visit next (.answered reply) := by
  by_cases issued : ∃ tag, reply = .issued tag
  · obtain ⟨tag, rfl⟩ := issued
    obtain ⟨asked, credentials, rfl⟩ := public_issued visit.env visit.files shm next visit.req tag answer
    exact .login tag asked credentials
  · obtain rfl : next = shm :=
      (public_frame visit.env visit.files shm next visit.req reply answer).resolve_right issued
    refine .idle (.answered reply) ⟨?_, nofun⟩
    rintro tag same
    exact issued ⟨tag, Outcome.answered.inj same⟩

theorem handle_effect (shm : Shm) (visit : Visit) : Effect shm visit (handle shm visit).1 (handle shm visit).2 := by
  unfold handle
  cases cmds.find? fun cmd => decide (cmd.1 = visit.argv0) with
  | none => exact .idle .notSupported ⟨nofun, nofun⟩
  | some cmd =>
      obtain ⟨name, service⟩ := cmd
      by_cases isPublic : service = .ftmcPublic
      · simp only [if_pos isPublic]
        cases answer : ftmcPublic visit.env visit.files shm visit.req with
        | none => exact .idle .crashed ⟨nofun, nofun⟩
        | some pair => exact public_effect shm pair.1 visit pair.2 answer
      · simp only [if_neg isPublic]
        cases presented : getstr visit.req "ssid" with
        | none => exact .idle .index quiet_index
        | some lpszSSID =>
            by_cases sized : lpszSSID.length = 32
            · simp only [dif_pos sized]
              cases valid : (isValidSSID shm ⟨lpszSSID, sized⟩ (timeT visit.xTime)).2 with
              | true =>
                  rw [if_pos rfl]
                  exact .service service ⟨lpszSSID, sized⟩ isPublic presented valid
              | false =>
                  rw [if_neg (by decide)]
                  exact .refused ⟨lpszSSID, sized⟩
            · simp only [dif_neg sized]
              exact .idle .index quiet_index

end Ftm50s.Cgi
