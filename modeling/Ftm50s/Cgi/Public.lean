import Ftm50s.Lib.Memory
import Ftm50s.Profile.Config
import Ftm50s.Ssid.Lifetime

set_option autoImplicit false

namespace Ftm50s.Cgi

open Lib.Text Lib.Decimal Lib.Mem Ftm50s.Ssid

structure Digest where
  bytes : Bytes
  sized : bytes.length = 16
deriving DecidableEq

def zeroDigest : Digest := ⟨List.replicate 16 0, rfl⟩

def hexDigit (n : Nat) : UInt8 := UInt8.ofNat (if n < 10 then 48 + n else 87 + n)

-- "%08x"
def hexWord (word : BitVec 32) : Bytes := (List.range 8).map fun i => hexDigit (word.toNat / 16 ^ (7 - i) % 16)

-- The digest is read as four words; the text they print is the tag.
def makeSSID (digest : Digest) : Tag where
  bytes := (List.range 4).flatMap fun k => hexWord (readWord (fun i => digest.bytes.getD i 0) (4 * k))
  sized := by simp [List.range_succ, hexWord]

-- What one request finds around it: the stack, the shared memory limits, MD5 of
-- the seed with the uptime and ps lines of the moment, and the clock.
structure Env where
  stale : Profile.Stale
  creatable : Bool
  digest : Bytes → Digest
  clock : Nat

inductive PublicReply where
  | noCommand
  | devInfo (config : Profile.Config)
  | devInfoFailed
  | loginFailed
  | refused
  | issued (tag : Tag)
  | headerOnly

def publicText : PublicReply → Bytes
  | .noCommand => []
  | .devInfo config =>
      putHeader ++ ascii "<SYSTEM_INFO>\n" ++ ascii "<PROFILE>\n" ++ element (ascii "MODEL") config.szModel ++
        element (ascii "SN") config.szSerialNumber ++ element (ascii "LOCATION") config.szLocation ++
        element (ascii "TIMEOUT") (decimalInt config.nTimeout) ++ ascii "</PROFILE>\n" ++ ascii "</SYSTEM_INFO>\n"
  | .devInfoFailed => putHeader ++ putError "PROFILE" (some "Failed to load profile data.")
  | .loginFailed => putHeader
  | .refused => putHeader ++ ascii "<FTM-50>\n" ++ element (ascii "RET") (ascii "ERROR") ++ ascii "</FTM-50>\n"
  | .issued tag => putHeader ++ ascii "<FTM-50>\n" ++ element (ascii "SSID") tag.bytes ++ ascii "</FTM-50>\n"
  | .headerOnly => putHeader

-- The two strcmp calls are reached one after the other; a NULL argument is
-- undefined, which none stands for.
def getSsid (env : Env) (config : Profile.Config) (shm : Shm) (req : Request) : Option (Shm × PublicReply) :=
  match getstr req "id" with
  | none => none
  | some id =>
      if id ≠ config.szUserID then some (shm, .refused)
      else
        match getstr req "pw" with
        | none => none
        | some pw =>
            if pw ≠ config.szPasswd then some (shm, .refused)
            else
              match getstr req "seed" with
              | none => some (shm, .refused)
              | some seed =>
                  let tag := makeSSID (env.digest seed)
                  some ((saveSSID env.creatable shm tag (timeT env.clock)).1, .issued tag)

def ftmcPublic (env : Env) (files : Profile.Files) (shm : Shm) (req : Request) : Option (Shm × PublicReply) :=
  match getstr req "cmd" with
  | none => some (shm, .noCommand)
  | some cmd =>
      if cmd = ascii "get_dev_info" then
        (Profile.loadProfileConfig env.stale files).map fun loaded =>
          match loaded with
          | none => (shm, .devInfoFailed)
          | some config => (shm, .devInfo config)
      else if cmd = ascii "get_ssid" then
        (Profile.loadProfileConfig env.stale files).bind fun loaded =>
          match loaded with
          | none => some (shm, .loginFailed)
          | some config => getSsid env config shm req
      else some (shm, .headerOnly)

def CredentialsMatch (env : Env) (files : Profile.Files) (req : Request) : Prop :=
  ∃ config, Profile.loadProfileConfig env.stale files = some (some config) ∧
    getstr req "id" = some config.szUserID ∧ getstr req "pw" = some config.szPasswd

theorem get_ssid_issued (env : Env) (config : Profile.Config) (shm next : Shm) (req : Request) (tag : Tag)
    (answer : getSsid env config shm req = some (next, .issued tag)) :
    getstr req "id" = some config.szUserID ∧ getstr req "pw" = some config.szPasswd ∧
      next = (saveSSID env.creatable shm tag (timeT env.clock)).1 := by
  unfold getSsid at answer
  cases idValue : getstr req "id" with
  | none => simp [idValue] at answer
  | some id =>
      by_cases idSame : id = config.szUserID
      · cases pwValue : getstr req "pw" with
        | none => simp [idValue, idSame, pwValue] at answer
        | some pw =>
            by_cases pwSame : pw = config.szPasswd
            · cases seedValue : getstr req "seed" with
              | none => simp [idValue, idSame, pwValue, pwSame, seedValue] at answer
              | some seed =>
                  simp only [idValue, idSame, pwValue, pwSame, seedValue, ne_eq, not_true_eq_false, if_false,
                    Option.some.injEq, Prod.mk.injEq, PublicReply.issued.injEq] at answer
                  obtain ⟨stored, rfl⟩ := answer
                  exact ⟨by rw [idSame], by rw [pwSame], stored.symm⟩
            · simp [idValue, idSame, pwValue, pwSame] at answer
      · simp [idValue, idSame] at answer

theorem public_issued (env : Env) (files : Profile.Files) (shm next : Shm) (req : Request) (tag : Tag)
    (answer : ftmcPublic env files shm req = some (next, .issued tag)) :
    getstr req "cmd" = some (ascii "get_ssid") ∧ CredentialsMatch env files req ∧
      next = (saveSSID env.creatable shm tag (timeT env.clock)).1 := by
  unfold ftmcPublic at answer
  cases cmdValue : getstr req "cmd" with
  | none => simp [cmdValue] at answer
  | some cmd =>
      simp only [cmdValue] at answer
      split at answer
      · obtain ⟨loaded, _, reply⟩ := Option.map_eq_some_iff.mp answer
        cases loaded <;> simp at reply
      · split at answer
        next isLogin =>
          obtain ⟨loaded, load, reply⟩ := Option.bind_eq_some_iff.mp answer
          cases loaded with
          | none => simp at reply
          | some config =>
              obtain ⟨idSame, pwSame, stored⟩ := get_ssid_issued env config shm next req tag reply
              exact ⟨by rw [isLogin], ⟨config, load, idSame, pwSame⟩, stored⟩
        next => simp at answer

theorem public_login_iff (env : Env) (files : Profile.Files) (config : Profile.Config) (shm : Shm) (req : Request)
    (id pw seed : Bytes) (loaded : Profile.loadProfileConfig env.stale files = some (some config))
    (cmdGiven : getstr req "cmd" = some (ascii "get_ssid")) (idGiven : getstr req "id" = some id)
    (pwGiven : getstr req "pw" = some pw) (seedGiven : getstr req "seed" = some seed) :
    (∃ next tag, ftmcPublic env files shm req = some (next, .issued tag)) ↔
      id = config.szUserID ∧ pw = config.szPasswd := by
  have other : ascii "get_ssid" ≠ ascii "get_dev_info" := by decide
  constructor
  · rintro ⟨next, tag, answer⟩
    obtain ⟨_, ⟨stored, sameLoad, idSame, pwSame⟩, _⟩ := public_issued env files shm next req tag answer
    obtain rfl : config = stored := Option.some.inj (Option.some.inj (loaded.symm.trans sameLoad))
    exact ⟨Option.some.inj (idGiven.symm.trans idSame), Option.some.inj (pwGiven.symm.trans pwSame)⟩
  · rintro ⟨rfl, rfl⟩
    simp [ftmcPublic, cmdGiven, other, loaded, getSsid, idGiven, pwGiven, seedGiven]

theorem get_ssid_frame (env : Env) (config : Profile.Config) (shm next : Shm) (req : Request) (reply : PublicReply)
    (answer : getSsid env config shm req = some (next, reply)) : next = shm ∨ ∃ tag, reply = .issued tag := by
  unfold getSsid at answer
  repeat' split at answer
  all_goals simp only [Option.some.injEq, Prod.mk.injEq, reduceCtorEq] at answer
  all_goals first
    | exact Or.inl answer.1.symm
    | exact Or.inr ⟨_, answer.2.symm⟩

theorem public_frame (env : Env) (files : Profile.Files) (shm next : Shm) (req : Request) (reply : PublicReply)
    (answer : ftmcPublic env files shm req = some (next, reply)) : next = shm ∨ ∃ tag, reply = .issued tag := by
  unfold ftmcPublic at answer
  cases cmdValue : getstr req "cmd" with
  | none =>
      simp only [cmdValue, Option.some.injEq, Prod.mk.injEq] at answer
      exact Or.inl answer.1.symm
  | some cmd =>
      simp only [cmdValue] at answer
      split at answer
      · obtain ⟨loaded, _, pair⟩ := Option.map_eq_some_iff.mp answer
        cases loaded with
        | none => exact Or.inl (congrArg Prod.fst pair).symm
        | some config => exact Or.inl (congrArg Prod.fst pair).symm
      · split at answer
        · obtain ⟨loaded, _, pair⟩ := Option.bind_eq_some_iff.mp answer
          cases loaded with
          | none => exact Or.inl (congrArg Prod.fst (Option.some.inj pair)).symm
          | some config => exact get_ssid_frame env config shm next req reply pair
        · exact Or.inl (congrArg Prod.fst (Option.some.inj answer)).symm

end Ftm50s.Cgi
