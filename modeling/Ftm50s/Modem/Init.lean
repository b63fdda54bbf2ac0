import Ftm50s.Modem.Detect

set_option autoImplicit false

namespace Ftm50s.Modem

open Lib.Text Lib.Daemon

def script : Model → Bytes
  | .tx200k => ascii "/etc/init.d/tx200kd"
  | .uc864e => ascii "/etc/init.d/uc864ed"
  | .uc864k => ascii "/etc/init.d/uc864ed"

-- The chain of comparisons behind the dialogue. An MDM_MODEL is an int, and any
-- other value links nothing.
def linkOf (xModel : Int) : Option Bytes :=
  if xModel = 0 then some (ascii "/etc/init.d/tx200kd")
  else if xModel = 1 then some (ascii "/etc/init.d/uc864ed")
  else if xModel = 2 then some (ascii "/etc/init.d/uc864ed")
  else none

-- nRet, and what MDM_GetModel has stored in the local xModel, if anything
structure Init where
  nRet : Int
  reported : Option Model
deriving DecidableEq, Repr

def initAnswer (answer : MdmError × Option Model) : Prog Op Ans (Except Stop (Option (Option Model))) :=
  if answer.1 = .ok then return .ok (some answer.2) else return .ok none

-- The dialogue of MDM_Init; none unless all three calls succeed. MDM_EchoOn
-- leaves pMDM->bEcho at 1.
def initDialogue : Prog Op Ans (Except Stop (Option (Option Model))) :=
  mdmIsRunning.andThen fun running =>
    if running then
      (mdmSetEcho true).andThen fun echoed =>
        if echoed = .ok then (mdmGetModel true).andThen initAnswer else return .ok none
    else return .ok none

-- The link behind the dialogue. `xModel` is pMDM->xModel at the call: nothing
-- assigns it here, and it replaces the model that was found.
def initFinish (xModel : Int) (answer : Option (Option Model)) : Prog Op Ans (Except Stop Init) :=
  .call .xcomClose fun _ =>
    match answer with
    | none => .done (.ok ⟨-1, none⟩)
    | some reported =>
        match linkOf xModel with
        | none => .done (.ok ⟨0, reported⟩)
        | some target => .call (.link target) fun _ => .done (.ok ⟨0, reported⟩)

def mdmInit (xModel : Int) : Prog Op Ans (Except Stop Init) :=
  .call .xcomOpen fun opened =>
    if opened < 0 then .done (.ok ⟨-1, none⟩) else initDialogue.andThen (initFinish xModel)

def links (events : List (Event Op Ans)) : List Bytes :=
  events.filterMap fun event =>
    match event with
    | ⟨.link target, _⟩ => some target
    | _ => none

def reads (events : List (Event Op Ans)) : List (Nat × Bytes) :=
  events.filterMap fun event =>
    match event with
    | ⟨.xcomRead size, reply⟩ => some (size, reply)
    | _ => none

-- A call that never comes back returns no 0; after undefined behaviour nothing
-- can be said.
def LinksReported (events : List (Event Op Ans)) (outcome : Except Stop Init) : Prop :=
  outcome ≠ .error .undefined ∧
    ∀ init, outcome = .ok init → init.nRet = 0 → ∃ model, init.reported = some model ∧ links events = [script model]

-- The reply fills its array, or has more than sixteen whole lines of text.
def Overlong (size : Nat) (reply : Bytes) : Prop :=
  size ≤ reply.length ∨ 16 < ((cstr reply).splitOn 10).dropLast.countP isText

instance (size : Nat) (reply : Bytes) : Decidable (Overlong size reply) := inferInstanceAs (Decidable (_ ∨ _))

def Ends (reply : Bytes) : Prop := cstr reply = [] ∨ (cstr reply).getLast? = some 10

theorem heard_cases (size : Nat) (reply : Bytes) (room : size ≤ 4096) (arrived : reply ≠ []) :
    (Overlong size reply ∧ heard size reply = .error .undefined) ∨
      (¬ Overlong size reply ∧ ¬ Ends reply ∧ heard size reply = .error .hangs) ∨
      (¬ Overlong size reply ∧ Ends reply ∧ ∃ bOK, heard size reply =
      .ok (some ⟨responseLines (cstr reply), bOK⟩)) := by
  rw [heard, if_neg arrived, Overlong, Ends]
  by_cases full : size ≤ reply.length
  · exact Or.inl ⟨Or.inl full, if_pos full⟩
  · have length : (cstr reply).length < 4096 := lt_of_le_of_lt (List.takeWhile_prefix _).length_le (by omega)
    rw [if_neg full, parse_response_cases (cstr reply) (cstr_no_nul reply) length]
    by_cases tooMany : 16 < ((cstr reply).splitOn 10).dropLast.countP isText
    · rw [if_pos tooMany]
      exact Or.inl ⟨Or.inr tooMany, rfl⟩
    · rw [if_neg tooMany]
      have fits : ¬ (size ≤ reply.length ∨ 16 < ((cstr reply).splitOn 10).dropLast.countP isText) :=
        fun either => either.elim full tooMany
      by_cases ends : cstr reply = [] ∨ (cstr reply).getLast? = some 10
      · rw [if_pos ends]
        exact Or.inr (Or.inr ⟨fits, ends, _, rfl⟩)
      · rw [if_neg ends]
        exact Or.inr (Or.inl ⟨fits, ends, rfl⟩)

theorem heard_undefined_iff (size : Nat) (reply : Bytes) (room : size ≤ 4096) (positive : 0 < size) :
    heard size reply = .error .undefined ↔ Overlong size reply := by
  by_cases silent : reply = []
  · subst silent
    have short : ¬ Overlong size [] := by
      rintro (full | tooMany)
      · rw [List.length_nil] at full
        omega
      · revert tooMany
        decide
    exact ⟨nofun, fun overlong => absurd overlong short⟩
  · obtain ⟨overlong, run⟩ | ⟨short, _, run⟩ | ⟨short, _, _, run⟩ := heard_cases size reply room silent
    · exact ⟨fun _ => overlong, fun _ => run⟩
    · exact ⟨fun undefined => absurd (run.symm.trans undefined) (by decide), fun overlong => absurd overlong short⟩
    · exact ⟨fun undefined => absurd (run.symm.trans undefined) nofun, fun overlong => absurd overlong short⟩

theorem is_running_spec : Ensures mdmIsRunning fun events outcome => ∃ reply,
    events = [⟨.xcomWrite atCmd, ()⟩, ⟨.xcomRead 1024, reply⟩] ∧
      outcome = (heard 1024 reply).map fun xResp => xResp.any Resp.bOK := by
  simp only [mdmIsRunning, mdmSend, mdmRecv, receive, call_bind, done_bind, ensures_call, ensures_and_then,
    ensures_done]
  intro _ reply
  cases run : heard 1024 reply with
  | error stop => exact ⟨reply, rfl, by rw [run]; rfl⟩
  | ok xResp => exact ⟨reply, rfl, by rw [run]; rfl⟩

theorem set_echo_spec (on : Bool) : Ensures (mdmSetEcho on) fun events outcome => ∃ reply,
    events = [⟨.xcomWrite (ate on), ()⟩, ⟨.xcomRead 64, reply⟩] ∧ outcome = (heard 64 reply).map echoError := by
  simp only [mdmSetEcho, mdmSend, receive, call_bind, done_bind, ensures_call, ensures_and_then, ensures_done]
  intro _ reply
  cases run : heard 64 reply with
  | error stop => exact ⟨reply, rfl, by rw [run]; rfl⟩
  | ok xResp => exact ⟨reply, rfl, by rw [run]; rfl⟩

def Fits (events : List (Event Op Ans)) : Prop := ∀ read ∈ reads events, ¬ Overlong read.1 read.2

-- The replies that MDM_GetModel has read
def modelReplies (events : List (Event Op Ans)) : List Bytes := (replies events).drop 2

def Readable (reply : Bytes) : Prop := reply ≠ [] ∧ Ends reply

-- How the dialogue ends, by what was read in it
def Concludes (events : List (Event Op Ans)) : Except Stop (Option (Option Model)) → Prop
  | .error .undefined => ¬ Fits events ∨ ∃ reply ∈ modelReplies events, Readable reply ∧ modelLine true reply = none
  | .error .hangs => Fits events ∧ ∀ reply ∈ modelReplies events, ¬ Readable reply
  | .ok none => Fits events ∧ ∀ reply ∈ modelReplies events, ¬ Readable reply
  | .ok (some reported) => Fits events ∧ links events = [] ∧ ∃ reply text, reply ∈ modelReplies events ∧
      (∀ other ∈ modelReplies events, Readable other → other = reply) ∧ Readable reply ∧ modelLine true reply =
      some text ∧
      reported = xModemInfos.find? fun info => modelName info = text

theorem fits_append (front back : List (Event Op Ans)) : Fits (front ++ back) ↔ Fits front ∧ Fits back := by
  simp only [Fits, reads, List.filterMap_append, List.mem_append, or_imp, forall_and]

theorem fits_read (front : List (Event Op Ans)) (cmd : Bytes) (size : Nat) (reply : Bytes) (room : size ≤ 4096)
    (positive : 0 < size) (earlier : Fits front) :
    Fits (front ++ [⟨.xcomWrite cmd, ()⟩, ⟨.xcomRead size, reply⟩]) ↔ heard size reply ≠ .error .undefined := by
  have last : Fits [⟨.xcomWrite cmd, ()⟩, ⟨.xcomRead size, reply⟩] ↔ ¬ Overlong size reply := by
    simp [Fits, reads]
  rw [fits_append, last, ← heard_undefined_iff size reply room positive, and_iff_right earlier]

theorem model_replies_read (front : List (Event Op Ans)) (cmd : Bytes) (size : Nat) (reply : Bytes)
    (two : 2 ≤ (replies front).length) :
    modelReplies (front ++ [⟨.xcomWrite cmd, ()⟩, ⟨.xcomRead size, reply⟩]) = modelReplies front ++ [reply] := by
  have last : replies [⟨.xcomWrite cmd, ()⟩, ⟨.xcomRead size, reply⟩] = [reply] := rfl
  have split : replies (front ++ [⟨.xcomWrite cmd, ()⟩, ⟨.xcomRead size, reply⟩]) = replies front ++ [reply] := by
    rw [← last, replies, List.filterMap_append]
    rfl
  rw [modelReplies, split, List.drop_append_of_le_length two]
  rfl

theorem not_readable_nil : ¬ Readable [] := fun readable => readable.1 rfl

theorem model_read_concludes (front : List (Event Op Ans)) (cmd reply : Bytes) (fits : Fits front)
    (unlinked : links front = []) (two : 2 ≤ (replies front).length) (unread : ∀ other ∈ modelReplies front,
    ¬ Readable other) :
    Ensures (goOn initAnswer ((heard 1024 reply).bind (findModel true))) fun later next =>
      Concludes (front ++ [⟨.xcomWrite cmd, ()⟩, ⟨.xcomRead 1024, reply⟩] ++ later) next := by
  have fit := fits_read front cmd 1024 reply (by decide) (by decide) fits
  have models := model_replies_read front cmd 1024 reply two
  have each : ∀ other ∈ modelReplies front ++ [reply], Readable other → other = reply := by
    intro other member readable
    rcases List.mem_append.mp member with earlier | last
    · exact absurd readable (unread other earlier)
    · exact List.mem_singleton.mp last
  have unreadable : ¬ Readable reply → ∀ other ∈ modelReplies front ++ [reply], ¬ Readable other := by
    intro lost other member readable
    exact lost (each other member readable ▸ readable)
  by_cases silent : reply = []
  · subst silent
    refine (⟨?_, ?_⟩ : Concludes _ (.ok none))
    · rw [List.append_nil]
      exact fit.mpr fun same => by cases same
    · rw [List.append_nil, models]
      exact unreadable not_readable_nil
  · obtain ⟨_, run⟩ | ⟨_, unended, run⟩ | ⟨_, ends, bOK, run⟩ := heard_cases 1024 reply (by decide) silent
    · rw [run] at fit ⊢
      refine (Or.inl fun whole => ?_ : Concludes _ (.error .undefined))
      rw [List.append_nil] at whole
      exact fit.mp whole rfl
    · rw [run] at fit ⊢
      refine (⟨?_, ?_⟩ : Concludes _ (.error .hangs))
      · rw [List.append_nil]
        exact fit.mpr (by decide)
      · rw [List.append_nil, models]
        exact unreadable fun readable => unended readable.2
    · rw [run] at fit ⊢
      have readable : Readable reply := ⟨silent, ends⟩
      have member : reply ∈ modelReplies front ++ [reply] := by simp
      simp only [Except.bind, findModel]
      cases line : (responseLines (cstr reply))[true.toNat]? with
      | none =>
          refine (Or.inr ⟨reply, ?_, readable, line⟩ : Concludes _ (.error .undefined))
          rw [List.append_nil, models]
          exact member
      | some text =>
          rw [search_model_line]
          refine (⟨?_, ?_, reply, text, ?_, ?_, readable, line, rfl⟩ : Concludes _ (.ok (some _)))
          · rw [List.append_nil]
            exact fit.mpr fun same => by cases same
          · rw [links] at unlinked
            rw [List.append_nil, links, List.filterMap_append, unlinked]
            rfl
          · rw [List.append_nil, models]
            exact member
          · rw [List.append_nil, models]
            exact each

theorem dialogue_concludes : Ensures initDialogue Concludes := by
  rw [initDialogue, ensures_and_then]
  refine ensures_mono _ _ _ is_running_spec fun events outcome spec => ?_
  obtain ⟨running, rfl, rfl⟩ := spec
  have start : Fits [] := by simp [Fits, reads]
  have first := fits_read [] atCmd 1024 running (by decide) (by decide) start
  cases heardRunning : heard 1024 running with
  | error stop =>
      rw [heardRunning] at first
      cases stop with
      | undefined => exact Or.inl fun fits => first.mp fits rfl
      | hangs => exact ⟨first.mpr (by decide), nofun⟩
  | ok xResp =>
      rw [heardRunning] at first
      have fits := first.mpr nofun
      simp only [Except.map, go_on_ok, ensures_ite]
      refine ⟨fun _ => ?_, fun _ => ⟨fits, nofun⟩⟩
      rw [ensures_and_then]
      refine ensures_mono _ _ _ (set_echo_spec true) fun events outcome spec => ?_
      obtain ⟨echo, rfl, rfl⟩ := spec
      have second := fits_read _ (ate true) 64 echo (by decide) (by decide) fits
      cases heardEcho : heard 64 echo with
      | error stop =>
          rw [heardEcho] at second
          cases stop with
          | undefined => exact Or.inl fun fits => second.mp fits rfl
          | hangs => exact ⟨second.mpr (by decide), nofun⟩
      | ok xResp =>
          rw [heardEcho] at second
          have fits := second.mpr nofun
          simp only [Except.map, go_on_ok, ensures_ite]
          refine ⟨fun _ => ?_, fun _ => ⟨fits, nofun⟩⟩
          rw [ensures_and_then]
          refine ensures_mono _ _ _ (get_model_spec true) fun events outcome spec => ?_
          obtain ⟨reply, _, rfl, rfl⟩ | ⟨reply, rfl, rfl⟩ := spec
          · exact model_read_concludes _ atGmm reply fits rfl (Nat.le_refl 2) nofun
          · have quiet : heard 1024 [] ≠ .error .undefined := nofun
            have third := (fits_read _ atGmm 1024 [] (by decide) (by decide) fits).mpr quiet
            refine model_read_concludes _ atCmd reply third rfl (Nat.le_succ 2) fun other member => ?_
            obtain rfl : other = [] := List.mem_singleton.mp member
            exact not_readable_nil

def Agrees (xModel : Int) (events : List (Event Op Ans)) : Prop :=
  Fits events ∧ ∀ reply ∈ modelReplies events, Readable reply →
    ∃ found, modelLine true reply = some (modelName found) ∧ linkOf xModel = some (script found)

theorem finish_spec (xModel : Int) (reported : Option Model) :
    Ensures (initFinish xModel (some reported)) fun events outcome =>
      (reads events = [] ∧ replies events = []) ∧ links events = (linkOf xModel).toList ∧
        outcome = .ok ⟨0, reported⟩ := by
  rw [initFinish, ensures_call]
  intro _
  cases linkOf xModel with
  | none => exact ⟨⟨rfl, rfl⟩, rfl, rfl⟩
  | some target => exact fun _ => ⟨⟨rfl, rfl⟩, rfl, rfl⟩

theorem agrees_around (xModel opened : Int) (events later : List (Event Op Ans)) (noReads : reads later = [])
    (noReplies : replies later = []) : Agrees xModel (⟨.xcomOpen, opened⟩ :: (events ++ later)) ↔
    Agrees xModel events := by
  have readsSame : reads (⟨.xcomOpen, opened⟩ :: (events ++ later)) = reads events := by
    rw [reads] at noReads
    simp only [reads, List.filterMap_cons, List.filterMap_append, noReads, List.append_nil]
  have repliesSame : replies (⟨.xcomOpen, opened⟩ :: (events ++ later)) = replies events := by
    rw [replies] at noReplies
    simp only [replies, List.filterMap_cons, List.filterMap_append, noReplies, List.append_nil]
  rw [Agrees, Fits, modelReplies, readsSame, repliesSame]
  rfl

theorem init_links_spec (xModel : Int) :
    Ensures (mdmInit xModel) fun events outcome => LinksReported events outcome ↔ Agrees xModel events := by
  rw [mdmInit, ensures_call]
  intro opened
  rw [ensures_ite]
  refine ⟨fun _ => ?_, fun _ => ?_⟩
  · simp [LinksReported, Agrees, Fits, modelReplies, reads, replies]
  · rw [ensures_and_then]
    refine ensures_mono _ _ _ dialogue_concludes fun events outcome concludes => ?_
    cases outcome with
    | error stop =>
        rw [go_on_error, ensures_done, agrees_around xModel opened events [] rfl rfl]
        cases stop with
        | undefined =>
            refine iff_of_false (fun reported => reported.1 rfl) fun agrees => ?_
            rcases concludes with overlong | ⟨reply, member, readable, missing⟩
            · exact overlong agrees.1
            · obtain ⟨found, line, _⟩ := agrees.2 reply member readable
              rw [missing] at line
              cases line
        | hangs =>
            obtain ⟨fits, unread⟩ := concludes
            exact iff_of_true ⟨by decide, fun init same => by cases same⟩ ⟨fits, fun reply member readable =>
              absurd readable (unread reply member)⟩
    | ok answer =>
        rw [go_on_ok]
        cases answer with
        | none =>
            obtain ⟨fits, unread⟩ := concludes
            intro closed
            refine iff_of_true ⟨by simp, fun init same zero => ?_⟩
              ((agrees_around xModel opened events [⟨.xcomClose, closed⟩] rfl rfl).mpr
                ⟨fits, fun reply member readable => absurd readable (unread reply member)⟩)
            rw [← Except.ok.inj same] at zero
            cases zero
        | some reported =>
            obtain ⟨fits, unlinked, reply, text, member, only, readable, line, rfl⟩ := concludes
            refine ensures_mono _ _ _ (finish_spec xModel _) fun later outcome finished => ?_
            obtain ⟨⟨noReads, noReplies⟩, linked, rfl⟩ := finished
            rw [agrees_around xModel opened events later noReads noReplies]
            have all : links (⟨.xcomOpen, opened⟩ :: (events ++ later)) = (linkOf xModel).toList := by
              rw [links] at unlinked linked
              simp only [links, List.filterMap_cons, List.filterMap_append, unlinked, linked, List.nil_append]
            constructor
            · intro reported
              obtain ⟨model, found, target⟩ := reported.2 _ rfl rfl
              refine ⟨fits, fun other inside readable => ?_⟩
              rw [only other inside readable, line]
              refine ⟨model, congrArg some (find_named text model found).2.symm, ?_⟩
              rw [all] at target
              cases chosen : linkOf xModel with
              | none => simp [chosen] at target
              | some script => simpa [chosen] using target
            · intro agrees
              obtain ⟨found, named, chosen⟩ := agrees.2 reply member readable
              obtain rfl : text = modelName found := Option.some.inj (line.symm.trans named)
              refine ⟨by simp, fun init same _ => ⟨found, ?_, ?_⟩⟩
              · rw [← Except.ok.inj same]
                exact named_found found
              · rw [all, chosen]
                rfl

theorem init_links_iff (xModel : Int) (events : List (Event Op Ans)) (outcome : Except Stop Init)
    (run : Does (mdmInit xModel) events outcome) : LinksReported events outcome ↔ Agrees xModel events :=
  (ensures_iff _ _).mp (init_links_spec xModel) events outcome run

-- A UC864-E that answers every command with its model line and OK
def uc864eScene : (op : Op) → Ans op
  | .xcomOpen => 0
  | .xcomWrite _ => ()
  | .xcomRead _ => uc864eReply
  | .xcomClose => ()
  | .link _ => ()

theorem init_links_uc864e :
    LinksReported (replay uc864eScene (mdmInit 1)).1 (replay uc864eScene (mdmInit 1)).2 ∧
      (replay uc864eScene (mdmInit 1)).2 = .ok ⟨0, some .uc864e⟩ := by
  have read : reads (replay uc864eScene (mdmInit 1)).1 = [(1024, uc864eReply), (64, uc864eReply),
    (1024, uc864eReply)] := by
    decide +kernel
  have models : modelReplies (replay uc864eScene (mdmInit 1)).1 = [uc864eReply] := by decide +kernel
  refine ⟨(init_links_iff 1 _ _ (does_replay uc864eScene (mdmInit 1))).mpr ⟨?_, ?_⟩, by decide +kernel⟩
  · rw [Fits, read]
    decide +kernel
  · rw [models]
    intro reply member _
    rw [List.mem_singleton.mp member]
    exact ⟨.uc864e, by decide, by decide⟩

-- The modem says UC864-E, but *pMDM is still zeroed: pppd becomes tx200kd.
theorem zeroed_model_linked :
    ¬ (∀ (xModel : Int) (events : List (Event Op Ans)) (outcome : Except Stop Init),
        Does (mdmInit xModel) events outcome → LinksReported events outcome) := by
  intro always
  have result : (replay uc864eScene (mdmInit 0)).2 = .ok ⟨0, some .uc864e⟩ := by decide +kernel
  have linked : links (replay uc864eScene (mdmInit 0)).1 = [ascii "/etc/init.d/tx200kd"] := by decide +kernel
  obtain ⟨model, reported, same⟩ := (always 0 _ _ (does_replay uc864eScene (mdmInit 0))).2 _ result rfl
  obtain rfl := Option.some.inj reported
  rw [linked] at same
  exact absurd same (by decide)

end Ftm50s.Modem
