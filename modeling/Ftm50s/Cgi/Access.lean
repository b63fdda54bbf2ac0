import Ftm50s.Cgi.Main

set_option autoImplicit false

namespace Ftm50s.Cgi

open Lib.Text Ftm50s.Ssid

def lastSeen (tag : Tag) : Nat → List Event → Nat
  | seen, [] => seen
  | seen, (visit, .served _ other) :: rest => lastSeen tag (if other = tag then visit.xTime else seen) rest
  | seen, _ :: rest => lastSeen tag seen rest

-- The log accounts for a tag: its latest issue was a login with the stored
-- credentials, and nobody has logged it out since.
structure Accounted (log : List Event) (tag : Tag) (login : Visit) (after : List Event) : Prop where
  issued : ∃ before, log = before ++ (login, .answered (.issued tag)) :: after
  asked : getstr login.req "cmd" = some (ascii "get_ssid")
  credentials : CredentialsMatch login.env login.files login.req
  latest : ∀ event ∈ after, event.2 ≠ .answered (.issued tag)
  kept : ∀ event ∈ after, event.2 ≠ .served .ftmcLogout tag

structure Justified (log : List Event) (shm : Shm) : Prop where
  sound : ShmOk shm
  dated : ∀ tag expired, liveDate shm tag = some expired →
    ∃ login after, Accounted log tag login after ∧ expired = timeT (lastSeen tag login.env.clock after) + validTime

theorem last_seen_append (tag : Tag) (seen : Nat) (after : List Event) (event : Event) :
    lastSeen tag seen (after ++ [event]) = lastSeen tag (lastSeen tag seen after) [event] := by
  induction after generalizing seen with
  | nil => rfl
  | cons head rest ih =>
      obtain ⟨visit, outcome⟩ := head
      cases outcome <;> exact ih _

theorem last_seen_other (tag : Tag) (seen : Nat) (visit : Visit) (outcome : Outcome)
    (other : ∀ service, outcome ≠ .served service tag) : lastSeen tag seen [(visit, outcome)] = seen := by
  cases outcome with
  | served service served =>
      have different : served ≠ tag := fun same => other service (by rw [same])
      simp [lastSeen, different]
  | _ => rfl

theorem accounted_append (log : List Event) (tag : Tag) (login : Visit) (after : List Event) (event : Event)
    (accounted : Accounted log tag login after) (fresh : event.2 ≠ .answered (.issued tag))
    (stays : event.2 ≠ .served .ftmcLogout tag) : Accounted (log ++ [event]) tag login (after ++ [event]) := by
  obtain ⟨before, split⟩ := accounted.issued
  refine ⟨⟨before, by simp [split]⟩, accounted.asked, accounted.credentials, ?_, ?_⟩
  · intro other member
    rcases List.mem_append.mp member with old | new
    · exact accounted.latest other old
    · rwa [List.mem_singleton.mp new]
  · intro other member
    rcases List.mem_append.mp member with old | new
    · exact accounted.kept other old
    · rwa [List.mem_singleton.mp new]

theorem accounted_login (log : List Event) (tag : Tag) (visit : Visit)
    (asked : getstr visit.req "cmd" = some (ascii "get_ssid"))
    (credentials : CredentialsMatch visit.env visit.files visit.req) :
    Accounted (log ++ [(visit, .answered (.issued tag))]) tag visit [] :=
  ⟨⟨log, rfl⟩, asked, credentials, fun _ member => absurd member List.not_mem_nil, fun _ member =>
    absurd member List.not_mem_nil⟩

theorem dated_other (log : List Event) (shm next : Shm) (visit : Visit) (outcome : Outcome) (tag : Tag) (expired : Word)
    (justified : Justified log shm) (fresh : outcome ≠ .answered (.issued tag))
    (other : ∀ service, outcome ≠ .served service tag)
    (dates : liveDate next tag = liveDate shm tag ∨ liveDate next tag = none)
    (live : liveDate next tag = some expired) :
    ∃ login after, Accounted (log ++ [(visit, outcome)]) tag login after ∧
      expired = timeT (lastSeen tag login.env.clock after) + validTime := by
  rcases dates with same | lost
  · obtain ⟨login, after, accounted, date⟩ := justified.dated tag expired (same ▸ live)
    refine ⟨login, after ++ [(visit, outcome)], accounted_append log tag login after _ accounted fresh (other _), ?_⟩
    rw [last_seen_append, last_seen_other tag _ visit outcome other, date]
  · rw [lost] at live
    cases live

theorem login_step (log : List Event) (shm : Shm) (visit : Visit) (tag : Tag) (justified : Justified log shm)
    (asked : getstr visit.req "cmd" = some (ascii "get_ssid"))
    (credentials : CredentialsMatch visit.env visit.files visit.req) :
    Justified (log ++ [(visit, .answered (.issued tag))])
      (saveSSID visit.env.creatable shm tag (timeT visit.env.clock)).1 := by
  have step := run_call_step shm (.save visit.env.creatable tag visit.env.clock) justified.sound
  refine ⟨step.1, ?_⟩
  intro other expired live
  by_cases same : other = tag
  · subst same
    refine ⟨visit, [], accounted_login log other visit asked credentials, ?_⟩
    rcases save_ssid_outcome visit.env.creatable shm other (timeT visit.env.clock) with ⟨next, saved⟩ | failed
    · obtain ⟨_, own, _⟩ := save_ssid_spec visit.env.creatable shm next other
        (timeT visit.env.clock) justified.sound saved
      rw [saved, own] at live
      exact (Option.some.inj live).symm
    · rw [failed, save_ssid_failed visit.env.creatable shm other _ failed] at live
      cases live
  · have kept := step.2 other (by simpa [renews] using Ne.symm same)
    have fresh : Outcome.answered (.issued tag) ≠ .answered (.issued other) := by
      rintro ⟨⟩
      exact same rfl
    have unserved : ∀ service, Outcome.answered (.issued tag) ≠ .served service other := by
      intro service equal
      cases equal
    exact dated_other log shm _ visit _ other expired justified fresh unserved kept live

theorem service_shm_spec (service : Service) (shm : Shm) (tag : Tag) (ok : ShmOk shm) :
    ShmOk (serviceShm service shm tag) ∧
      (∀ other, liveDate (serviceShm service shm tag) other = liveDate shm other ∨
        liveDate (serviceShm service shm tag) other = none) ∧
      (service = .ftmcLogout → liveDate (serviceShm service shm tag) tag = none) := by
  by_cases isLogout : service = .ftmcLogout
  · subst isLogout
    obtain ⟨sound, gone, dates⟩ := delete_ssid_spec shm tag ok
    exact ⟨sound, dates, fun _ => gone⟩
  · have same : serviceShm service shm tag = shm := by cases service <;> first | rfl | contradiction
    rw [same]
    exact ⟨ok, fun _ => Or.inl rfl, fun logout => absurd logout isLogout⟩

theorem authorised_save (shm : Shm) (creatable : Bool) (tag : Tag) (time : Word) (old : Word) (ok : ShmOk shm)
    (found : liveDate shm tag = some old) :
    ∃ next, (saveSSID creatable shm tag time).1 = next ∧ ShmOk next ∧ liveDate next tag = some (time + validTime) ∧
      ∀ other, other ≠ tag → liveDate next other = liveDate shm other ∨ liveDate next other = none := by
  rcases save_ssid_outcome creatable shm tag time with ⟨next, saved⟩ | failed
  · obtain ⟨sound, own, others, _⟩ := save_ssid_spec creatable shm next tag time ok saved
    exact ⟨next, by rw [saved], sound, own, others⟩
  · rw [save_ssid_failed creatable shm tag time failed] at found
    cases found

theorem service_step (log : List Event) (shm : Shm) (visit : Visit) (service : Service) (tag : Tag)
    (justified : Justified log shm) (valid : (isValidSSID shm tag (timeT visit.xTime)).2 = true) :
    Justified (log ++ [(visit, .served service tag)])
      (serviceShm service
        (saveSSID visit.env.creatable (isValidSSID shm tag (timeT visit.xTime)).1 tag (timeT visit.xTime)).1 tag) := by
  rw [(is_valid_ssid_spec shm tag (timeT visit.xTime) justified.sound).2.1 valid]
  rw [is_valid_ssid_verdict shm tag (timeT visit.xTime) justified.sound, Option.any_eq_true] at valid
  obtain ⟨old, found, _⟩ := valid
  obtain ⟨saved, same, savedOk, own, others⟩ :=
    authorised_save shm visit.env.creatable tag (timeT visit.xTime) old justified.sound found
  rw [same]
  obtain ⟨sound, dates, logout⟩ := service_shm_spec service saved tag savedOk
  refine ⟨sound, ?_⟩
  intro other expired live
  by_cases mine : other = tag
  · subst mine
    obtain ⟨login, after, accounted, _⟩ := justified.dated other old found
    have stays : service ≠ .ftmcLogout := by
      intro isLogout
      rw [logout isLogout] at live
      cases live
    refine ⟨login, after ++ [(visit, .served service other)], ?_, ?_⟩
    · apply accounted_append log other login after (visit, .served service other) accounted nofun
      rintro ⟨⟩
      exact stays rfl
    · rcases dates other with kept | lost
      · rw [kept, own] at live
        rw [last_seen_append, ← Option.some.inj live]
        simp [lastSeen]
      · rw [lost] at live
        cases live
  · have kept : liveDate (serviceShm service saved tag) other = liveDate shm other ∨
        liveDate (serviceShm service saved tag) other = none := by
      rcases dates other with kept | lost
      · rw [kept]
        exact others other mine
      · exact Or.inr lost
    refine dated_other log shm _ visit (.served service tag) other expired justified nofun ?_ kept live
    rintro _ ⟨⟩
    exact mine rfl

theorem quiet_step (log : List Event) (shm next : Shm) (visit : Visit) (outcome : Outcome)
    (justified : Justified log shm) (quiet : Quiet outcome) (sound : ShmOk next) (dates : ∀ tag, liveDate next tag =
    liveDate shm tag ∨ liveDate next tag = none) :
    Justified (log ++ [(visit, outcome)]) next :=
  ⟨sound, fun tag expired live =>
    dated_other log shm next visit outcome tag expired justified (quiet.1 tag) (fun service => quiet.2 service tag)
      (dates tag) live⟩

theorem handle_step (log : List Event) (shm : Shm) (visit : Visit) (justified : Justified log shm) :
    Justified (log ++ [(visit, (handle shm visit).2)]) (handle shm visit).1 := by
  have effect := handle_effect shm visit
  generalize (handle shm visit).1 = next, (handle shm visit).2 = outcome at effect ⊢
  cases effect with
  | login tag asked credentials => exact login_step log shm visit tag justified asked credentials
  | service service tag _ _ valid => exact service_step log shm visit service tag justified valid
  | refused tag =>
      obtain ⟨sound, dates⟩ := run_call_step shm (.isValid tag visit.xTime) justified.sound
      exact quiet_step log shm _ visit .index justified quiet_index sound fun other => dates other rfl
  | idle outcome quiet =>
      exact quiet_step log shm shm visit outcome justified quiet justified.sound fun _ => Or.inl rfl

theorem history_justified (log : List Event) (shm : Shm) (visits : List Visit) (justified : Justified log shm) :
    Justified (log ++ history shm visits) (runVisits shm visits) := by
  induction visits generalizing log shm with
  | nil => simpa [history, runVisits] using justified
  | cons visit rest ih =>
      have next := ih _ _ (handle_step log shm visit justified)
      rwa [List.append_assoc] at next

theorem justified_start : Justified [] none := ⟨nofun, nofun⟩

theorem window_clock (seen now : Nat) (seenBound : seen + 600 < 2 ^ 31) (nowBound : now + 600 < 2 ^ 31)
    (inside : timeT seen + validTime - timeT now ≤ validTime) : now - 600 ≤ seen ∧ seen ≤ now := by
  simp only [timeT, validTime] at inside
  bv_omega

theorem last_seen_clock (tag : Tag) (seen limit : Nat) (after : List Event) (start : seen + 600 < limit)
    (clocks : ∀ event ∈ after, event.1.xTime + 600 < limit) : lastSeen tag seen after + 600 < limit := by
  induction after generalizing seen with
  | nil => exact start
  | cons event rest ih =>
      have later : ∀ event ∈ rest, event.1.xTime + 600 < limit := fun other member => clocks other (by simp [member])
      have now := clocks event (by simp)
      obtain ⟨visit, outcome⟩ := event
      cases outcome with
      | served service other =>
          apply ih _ _ later
          split
          · exact now
          · exact start
      | _ => exact ih seen start later

theorem history_visits (shm : Shm) (visits : List Visit) (event : Event) (member : event ∈ history shm visits) :
    event.1 ∈ visits := by
  induction visits generalizing shm with
  | nil => cases member
  | cons visit rest ih =>
      rcases List.mem_cons.mp member with rfl | later
      · simp
      · exact List.mem_cons_of_mem visit (ih _ later)

-- A service other than FTMC_Public runs only for a tag that the log accounts
-- for and that was last used within the validity time. The order of the clock
-- readings plays no part.
theorem service_needs_session (past : List Visit) (visit : Visit) (service : Service) (tag : Tag)
    (clocks : ∀ any ∈ visit :: past, any.xTime + 600 < 2 ^ 31 ∧ any.env.clock + 600 < 2 ^ 31)
    (called : (handle (runVisits none past) visit).2 = .served service tag) :
    getstr visit.req "ssid" = some tag.bytes ∧ tag.bytes.length = 32 ∧
      ∃ before login after, history none past = before ++ (login, .answered (.issued tag)) :: after ∧
        getstr login.req "cmd" = some (ascii "get_ssid") ∧ CredentialsMatch login.env login.files login.req ∧
        (∀ event ∈ after, event.2 ≠ .answered (.issued tag)) ∧
        (∀ event ∈ after, event.2 ≠ .served .ftmcLogout tag) ∧
        visit.xTime - 600 ≤ lastSeen tag login.env.clock after ∧
        lastSeen tag login.env.clock after ≤ visit.xTime := by
  have justified := history_justified [] none past justified_start
  rw [List.nil_append] at justified
  have effect := handle_effect (runVisits none past) visit
  rw [called] at effect
  generalize (handle (runVisits none past) visit).1 = next at effect
  cases effect with
  | service _ _ _ presented valid =>
      rw [is_valid_ssid_verdict _ tag (timeT visit.xTime) justified.sound, Option.any_eq_true] at valid
      obtain ⟨expired, live, inside⟩ := valid
      obtain ⟨login, after, accounted, rfl⟩ := justified.dated tag expired live
      obtain ⟨before, split⟩ := accounted.issued
      have visited : ∀ event ∈ before ++ (login, Outcome.answered (.issued tag)) :: after, event.1 ∈ past := by
        intro event member
        exact history_visits none past event (split ▸ member)
      have loginClock := (clocks login (List.mem_cons_of_mem visit (visited (login, .answered (.issued tag))
        (by simp)))).2
      have seenClock : lastSeen tag login.env.clock after + 600 < 2 ^ 31 := by
        apply last_seen_clock tag login.env.clock _ after loginClock
        intro event member
        exact (clocks event.1 (List.mem_cons_of_mem visit (visited event (by simp [member])))).1
      rw [in_window_unsigned, decide_eq_true_eq] at inside
      exact ⟨presented, tag.sized, before, login, after, split, accounted.asked, accounted.credentials,
        accounted.latest,
        accounted.kept, window_clock _ visit.xTime seenClock (clocks visit (by simp)).1 inside⟩
  | idle _ quiet => exact absurd rfl (quiet.2 service tag)

def sampleFiles : Profile.Files := ⟨some (ascii "userid: admin\npasswd: secret\n"), none, none⟩

def sampleEnv (clock : Nat) : Env := ⟨⟨[0], fun _ => 0#32⟩, true, fun _ => zeroDigest, clock⟩

def sampleLogin : Visit :=
  ⟨ascii "public",
    ⟨[(ascii "cmd", ascii "get_ssid"), (ascii "id", ascii "admin"), (ascii "pw", ascii "secret"),
    (ascii "seed", ascii "x")]⟩,
    sampleEnv 1000, sampleFiles, 1000⟩

def sampleVisit (name : String) (clock : Nat) : Visit :=
  ⟨ascii name, ⟨[(ascii "ssid", List.replicate 32 48)]⟩, sampleEnv clock, sampleFiles, clock⟩

theorem service_needs_session_sample :
    ∃ before login after, history none [sampleLogin, sampleVisit "page" 1500] =
        before ++ (login, .answered (.issued (sampleTag 48))) :: after ∧
      (2000 : Nat) - 600 ≤ lastSeen (sampleTag 48) login.env.clock after := by
  have clocks : ∀ any ∈ [sampleVisit "system" 2000, sampleLogin, sampleVisit "page" 1500],
      any.xTime + 600 < 2 ^ 31 ∧ any.env.clock + 600 < 2 ^ 31 := by
    simp [sampleVisit, sampleLogin, sampleEnv]
  obtain ⟨_, _, before, login, after, split, _, _, _, _, recent, _⟩ :=
    service_needs_session [sampleLogin, sampleVisit "page" 1500] (sampleVisit "system" 2000) .ftmcSystem (sampleTag 48)
      clocks rfl
  exact ⟨before, login, after, split, recent⟩

end Ftm50s.Cgi
