import Ftm50s.Modem.Response
import Ftm50s.Lib.Daemon

set_option autoImplicit false

namespace Ftm50s.Modem

open Lib.Text Lib.Daemon

-- What the functions of modem.c do outside the process: the serial line through
-- XCOM_*, and the shell command that links the dialler. A read answers the bytes
-- that XCOM_Read has stored in an array of the given size, none of them when it
-- timed out.
inductive Op where
  | xcomOpen
  | xcomWrite (lpszCmd : Bytes)
  | xcomRead (size : Nat)
  | xcomClose
  | link (script : Bytes)
deriving DecidableEq, Repr

abbrev Ans : Op → Type
  | .xcomOpen => Int
  | .xcomWrite _ => Unit
  | .xcomRead _ => Bytes
  | .xcomClose => Unit
  | .link _ => Unit

inductive Model where
  | tx200k | uc864e | uc864k
deriving DecidableEq, Repr

inductive MdmError where
  | ok | invalid | timeout
deriving DecidableEq, Repr

-- How a call can fail to come back: the parser never ends, or the code has left
-- what C defines (a byte stored behind an array, an entry read that was never set).
inductive Stop where
  | hangs | undefined
deriving DecidableEq, Repr

def atCmd : Bytes := ascii "AT\r"

def atGmm : Bytes := ascii "AT+GMM\r"

def ate (on : Bool) : Bytes := if on then ascii "ATE1\r" else ascii "ATE0\r"

def modelName : Model → Bytes
  | .tx200k => ascii "TX200K"
  | .uc864e => ascii "UC864-E"
  | .uc864k => ascii "UC864-K"

-- The entry MDM_MODEL_UNKNOWN ends the table and is never compared.
def xModemInfos : List Model := [.tx200k, .uc864e, .uc864k]

-- What XCOM_Read and MDM_ParseResponse make of a reply; none for a time-out. A
-- reply that fills the array has its NUL stored behind it.
def heard (size : Nat) (reply : Bytes) : Except Stop (Option Resp) :=
  if reply = [] then .ok none
  else if size ≤ reply.length then .error .undefined
  else
    match mdmParseResponse (cstr reply) with
    | .done resp => .ok (some resp)
    | .hangs => .error .hangs
    | .overran => .error .undefined

def receive (size : Nat) : Prog Op Ans (Except Stop (Option Resp)) :=
  .call (.xcomRead size) fun reply => .done (heard size reply)

-- MDM_ParseResponse always returns 0, so MDM_ERROR_INVALID never comes back.
def mdmRecv : Prog Op Ans (Except Stop (Option Resp)) := receive 1024

def mdmSend (lpszCmd : Bytes) : Prog Op Ans Unit := .call (.xcomWrite lpszCmd) .done

def mdmIsRunning : Prog Op Ans (Except Stop Bool) := do
  mdmSend atCmd
  mdmRecv.andThen fun xResp => return .ok (xResp.any Resp.bOK)

def echoError : Option Resp → MdmError
  | none => .timeout
  | some xResp => if xResp.bOK then .ok else .invalid

-- MDM_ERROR_OK goes with pMDM->bEcho = on.
def mdmSetEcho (on : Bool) : Prog Op Ans (Except Stop MdmError) := do
  mdmSend (ate on)
  (receive 64).andThen fun xResp => return .ok (echoError xResp)

-- The search through xModemInfos; `line` is lpszSplits[MDM_RIDX_MODEL + bEcho].
def searchModel (line : Option Bytes) : List Model → Except Stop (Option Model)
  | [] => .ok none
  | pInfo :: rest =>
      match line with
      | none => .error .undefined
      | some text => if modelName pInfo = text then .ok (some pInfo) else searchModel line rest

-- The returned error and what *pModel is set to, if it is
def findModel (bEcho : Bool) : Option Resp → Except Stop (MdmError × Option Model)
  | none => .ok (.timeout, none)
  | some xResp => (searchModel xResp.lpszSplits[bEcho.toNat]? xModemInfos).map fun model => (.ok, model)

def mdmGetModel (bEcho : Bool) : Prog Op Ans (Except Stop (MdmError × Option Model)) := do
  mdmSend atGmm
  mdmRecv.andThen fun first =>
    match first with
    | some xResp => return findModel bEcho (some xResp)
    | none => do
        mdmSend atCmd
        mdmRecv.andThen fun second => return findModel bEcho second

theorem search_model_line (text : Bytes) (infos : List Model) :
    searchModel (some text) infos = .ok (infos.find? fun info => modelName info = text) := by
  induction infos with
  | nil => rfl
  | cons info rest ih =>
      rw [searchModel]
      by_cases same : modelName info = text
      · rw [if_pos same, List.find?_cons_of_pos (by simpa using same)]
      · rw [if_neg same, List.find?_cons_of_neg (by simpa using same), ih]

def replies (events : List (Event Op Ans)) : List Bytes :=
  events.filterMap fun event =>
    match event with
    | ⟨.xcomRead _, reply⟩ => some reply
    | _ => none

-- What is read right after the given command was sent
def repliesTo (cmd : Bytes) : List (Event Op Ans) → List Bytes
  | ⟨.xcomWrite sent, _⟩ :: ⟨.xcomRead _, reply⟩ :: rest =>
      if sent = cmd then reply :: repliesTo cmd rest else repliesTo cmd rest
  | _ :: rest => repliesTo cmd rest
  | [] => []

theorem get_model_spec (bEcho : Bool) : Ensures (mdmGetModel bEcho) fun events outcome =>
    (∃ first, first ≠ [] ∧ events = [⟨.xcomWrite atGmm, ()⟩, ⟨.xcomRead 1024, first⟩] ∧
    outcome = (heard 1024 first).bind (findModel bEcho)) ∨ ∃ second, events = [⟨.xcomWrite atGmm, ()⟩,
    ⟨.xcomRead 1024, []⟩, ⟨.xcomWrite atCmd, ()⟩, ⟨.xcomRead 1024, second⟩] ∧ outcome = (heard 1024 second).bind
      (findModel bEcho) := by
  simp only [mdmGetModel, mdmSend, mdmRecv, receive, call_bind, done_bind, ensures_call, ensures_and_then, ensures_done]
  intro _ first
  by_cases silent : first = []
  · subst silent
    have none : heard 1024 [] = .ok none := rfl
    rw [none, go_on_ok]
    simp only [ensures_call, ensures_and_then, ensures_done]
    intro _ second
    cases reply : heard 1024 second with
    | error stop => exact Or.inr ⟨second, rfl, by rw [reply]; rfl⟩
    | ok xResp => exact Or.inr ⟨second, rfl, by rw [reply]; rfl⟩
  · cases reply : heard 1024 first with
    | error stop => exact Or.inl ⟨first, silent, rfl, by rw [reply]; rfl⟩
    | ok xResp =>
        cases xResp with
        | none =>
            rw [heard, if_neg silent] at reply
            split at reply
            · cases reply
            · split at reply <;> cases reply
        | some xResp => exact Or.inl ⟨first, silent, rfl, by rw [reply]; rfl⟩

-- A reply that fits its array and that the parser accepts
def Accepted (reply : Bytes) : Prop :=
  reply.length < 1024 ∧ (cstr reply = [] ∨ (cstr reply).getLast? = some 10) ∧
    ((cstr reply).splitOn 10).countP isText ≤ 16

instance (reply : Bytes) : Decidable (Accepted reply) := inferInstanceAs (Decidable (_ ∧ _ ∧ _))

theorem heard_accepted (reply : Bytes) (accepted : Accepted reply) (arrived : reply ≠ []) :
    ∃ bOK, heard 1024 reply = .ok (some ⟨responseLines (cstr reply), bOK⟩) := by
  obtain ⟨short, closed, few⟩ := accepted
  have length : (cstr reply).length < 4096 := lt_of_le_of_lt (List.takeWhile_prefix _).length_le (by omega)
  rw [heard, if_neg arrived, if_neg (by omega), parse_response_done (cstr reply) (cstr_no_nul reply) length closed few]
  exact ⟨_, rfl⟩

def modelLine (bEcho : Bool) (reply : Bytes) : Option Bytes := (responseLines (cstr reply))[bEcho.toNat]?

theorem find_model_accepted (bEcho : Bool) (reply : Bytes) (accepted : Accepted reply) (arrived : reply ≠ []) :
    (heard 1024 reply).bind (findModel bEcho) =
      match modelLine bEcho reply with
      | none => .error .undefined
      | some text => .ok (.ok, xModemInfos.find? fun info => modelName info = text) := by
  obtain ⟨bOK, reply⟩ := heard_accepted reply accepted arrived
  rw [reply]
  simp only [Except.bind, findModel, modelLine]
  split
  · rename_i missing
    rw [missing]
    rfl
  · rename_i text present
    rw [present, search_model_line]
    rfl

-- Only stored entries were read, and MDM_ERROR_OK stands for a model that a
-- reply to AT+GMM has named.
def Detects (bEcho : Bool) (events : List (Event Op Ans)) (outcome : Except Stop (MdmError × Option Model)) : Prop :=
  ∃ error model, outcome = .ok (error, model) ∧
    (error = .ok → ∃ found ∈ xModemInfos, model = some found ∧
      ∃ reply ∈ repliesTo atGmm events, modelLine bEcho reply = some (modelName found))

def Named (bEcho : Bool) (reply : Bytes) : Prop := ∃ found ∈ xModemInfos, modelLine bEcho reply = some (modelName found)

theorem find_named (text : Bytes) (found : Model) (search : (xModemInfos.find? fun info => modelName info = text) =
    some found) :
    found ∈ xModemInfos ∧ modelName found = text :=
  ⟨List.mem_of_find?_eq_some search, by simpa using List.find?_some search⟩

theorem named_found (found : Model) : (xModemInfos.find? fun info => modelName info = modelName found) =
    some found := by
  cases found <;> decide

theorem silent_unnamed (bEcho : Bool) (text : Bytes) : modelLine bEcho [] ≠ some text := by
  cases bEcho <;> exact nofun

-- The second command asks for no model, so after a time-out no reply can name one.
theorem model_detection_iff (bEcho : Bool) (events : List (Event Op Ans))
    (outcome : Except Stop (MdmError × Option Model)) (run : Does (mdmGetModel bEcho) events outcome)
      (accepted : ∀ reply ∈ replies events, Accepted reply) :
    Detects bEcho events outcome ↔ (∃ first, replies events = [first] ∧ Named bEcho first) ∨ replies events =
    [[], []] := by
  obtain ⟨first, arrived, rfl, rfl⟩ | ⟨second, rfl, rfl⟩ :=
    (ensures_iff _ _).mp (get_model_spec bEcho) events outcome run
  · have single : replies [⟨.xcomWrite atGmm, ()⟩, ⟨.xcomRead 1024, first⟩] = [first] := rfl
    rw [single] at accepted ⊢
    rw [find_model_accepted bEcho first (accepted first List.mem_cons_self) arrived]
    constructor
    · rintro ⟨error, model, defined, named⟩
      refine Or.inl ⟨first, rfl, ?_⟩
      cases line : modelLine bEcho first with
      | none => simp [line] at defined
      | some text =>
          rw [line] at defined
          obtain ⟨rfl, rfl⟩ := Prod.mk.inj (Except.ok.inj defined)
          obtain ⟨found, member, search, _⟩ := named rfl
          exact ⟨found, member, line.trans (congrArg some (find_named text found search).2.symm)⟩
    · rintro (⟨reply, same, found, member, line⟩ | silent)
      · obtain rfl : first = reply := (List.cons.inj same).1
        rw [line]
        refine ⟨.ok, some found, ?_, fun _ => ⟨found, member, rfl, first, List.mem_cons_self, line⟩⟩
        exact congrArg (fun model => Except.ok (MdmError.ok, model)) (named_found found)
      · cases silent
  · have both : replies [⟨.xcomWrite atGmm, ()⟩, ⟨.xcomRead 1024, []⟩, ⟨.xcomWrite atCmd, ()⟩,
      ⟨.xcomRead 1024, second⟩] =
        [[], second] := rfl
    rw [both] at accepted ⊢
    constructor
    · rintro ⟨error, model, defined, named⟩
      right
      by_cases silent : second = []
      · rw [silent]
      · rw [find_model_accepted bEcho second (accepted second (by simp)) silent] at defined
        cases line : modelLine bEcho second with
        | none => simp [line] at defined
        | some text =>
            rw [line] at defined
            obtain ⟨rfl, rfl⟩ := Prod.mk.inj (Except.ok.inj defined)
            obtain ⟨found, _, _, reply, member, said⟩ := named rfl
            have other : atCmd ≠ atGmm := by decide
            obtain rfl : reply = [] := by simpa [repliesTo, other] using member
            exact absurd said (silent_unnamed bEcho _)
    · rintro (⟨reply, same, _⟩ | silent)
      · cases same
      · obtain rfl : second = [] := by simpa using silent
        exact ⟨.timeout, none, rfl, nofun⟩

def uc864eReply : Bytes := ascii "AT+GMM\r\nUC864-E\r\n\r\nOK\r\n"

theorem uc864e_detected : Detects true [⟨.xcomWrite atGmm, ()⟩, ⟨.xcomRead 1024, uc864eReply⟩]
    (.ok (.ok, some .uc864e)) :=
  (model_detection_iff true [⟨.xcomWrite atGmm, ()⟩, ⟨.xcomRead 1024, uc864eReply⟩] (.ok (.ok, some .uc864e))
    ⟨(), _, rfl, uc864eReply, [], rfl, rfl, by decide +kernel⟩ (by decide +kernel)).mpr
      (Or.inl ⟨uc864eReply, rfl, .uc864e, by decide, by decide⟩)

def ge910Reply : Bytes := ascii "AT+GMM\r\nGE910\r\n\r\nOK\r\n"

-- A model that is not in the table is answered with MDM_ERROR_OK; a reply of one
-- line has no entry 1; after a time-out the reply to AT is searched.
theorem unknown_model_ok :
    ¬ (∀ (bEcho : Bool) (events : List (Event Op Ans)) (outcome : Except Stop (MdmError × Option Model)),
        Does (mdmGetModel bEcho) events outcome → (∀ reply ∈ replies events, Accepted reply) →
        Detects bEcho events outcome) ∧
      Does (mdmGetModel true) [⟨.xcomWrite atGmm, ()⟩, ⟨.xcomRead 1024, ascii "ERROR\r\n"⟩] (.error .undefined) ∧
      Does (mdmGetModel true) [⟨.xcomWrite atGmm, ()⟩, ⟨.xcomRead 1024, []⟩, ⟨.xcomWrite atCmd, ()⟩,
      ⟨.xcomRead 1024, uc864eReply⟩]
        (.ok (.ok, some .uc864e)) := by
  refine ⟨fun always => ?_, ⟨(), _, rfl, _, [], rfl, rfl, by decide +kernel⟩, ⟨(), _, rfl, [], _, rfl, (), _, rfl, _,
    [], rfl, rfl,
    by decide +kernel⟩⟩
  obtain ⟨error, model, same, named⟩ := always true [⟨.xcomWrite atGmm, ()⟩, ⟨.xcomRead 1024, ge910Reply⟩]
    (.ok (.ok, none))
    ⟨(), _, rfl, ge910Reply, [], rfl, rfl, by decide +kernel⟩ (by decide +kernel)
  obtain ⟨rfl, rfl⟩ := Prod.mk.inj (Except.ok.inj same)
  obtain ⟨found, _, unset, _⟩ := named rfl
  cases unset

end Ftm50s.Modem
