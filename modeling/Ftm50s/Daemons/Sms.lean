import Ftm50s.Daemons.NewMmon
import Ftm50s.Lib.Interleave

set_option autoImplicit false

namespace Ftm50s.Daemons
open Lib.Text Lib.Filter Lib.Decimal Lib.Daemon

inductive SmsState where
  | uninitialized | setTextMode | checkSms | settingApn | settingQos | deleteSms | wait
deriving DecidableEq, Repr

structure SmsVars where
  state : SmsState
  apnText : Bytes
  qosText : Bytes
deriving DecidableEq, Repr

def startSms : SmsVars := ⟨.uninitialized, [], []⟩

def newSmsPath : String := "/www/cgi-bin/scripts/get_new_sms.sh"

def smsapn : Bytes := ascii "smsapn"

def cmgr : Bytes := ascii "AT+CMGR"

def readFirst : Bytes := ascii "AT+CMGR=1"

def deleteFirst : Bytes := ascii "AT+CMGD=1"

def deleteEvery : Bytes := ascii "AT+CMGD=1,4"

def cgdcont (apn : Bytes) : Bytes := ascii "AT+CGDCONT=2,IP," ++ apn ++ ascii ",0.0.0.0,0,0"

def cgeqreq (qos : Bytes) : Bytes := ascii "AT+CGEQREQ=2," ++ qos

-- sed -e 's/:/ /g' | awk '{ print $2 }'
def apnOf (line : Bytes) : Bytes := awkField 2 (replaceAll [58] [32] line)

-- sed -e 's/:/ /g' | awk '{ print $5 "," $3 "," $4 }'
def qosOf (line : Bytes) : Bytes :=
  let fields := replaceAll [58] [32] line
  awkField 5 fields ++ 44 :: awkField 3 fields ++ 44 :: awkField 4 fields

def afterLast (hit : Bytes → Bool) : List Bytes → Option (List Bytes)
  | [] => none
  | row :: rows =>
      match afterLast hit rows with
      | some rest => some rest
      | none => if hit row then some rows else none

-- What get_new_sms.sh prints once it stands behind the last AT+CMGR.
def smsReply (rest : List Bytes) : Bytes :=
  let word := awkField 1 (rest.head?.getD [])
  if word = ascii "+CMGR:" then echoed (rest[1]?.getD []) ++ [10]
  else if word = ascii "OK" then ascii "none" ++ [10]
  else if word = ascii "+CME" then echoed (rest.head?.getD []) ++ [10]
  else ascii "URC MESSAGE" ++ [10]

-- get_new_sms.sh over the rows of /var/log/modem; sed drops the empty ones.
def getNewSmsSh (log : List Bytes) : Bytes :=
  match afterLast (occurs cmgr) (log.filter (!·.isEmpty)) with
  | some rest => smsReply rest
  | none => []

def smsapnLine (result : Bytes) : Bytes := if occurs smsapn (echoed result) then echoed result else []

-- The values for apn_text and qos_text, or none where the source returns 1.
def getNewSms : Prog Op Ans (Option (Bytes × Bytes)) := do
  echo readFirst ttyS1
  let output ← script newSmsPath
  let result := backquote output
  if result = ascii "none" then return none
  else if result = ascii "URC MESSAGE" then return none
  else if smsapnLine result = [] then
    echo deleteEvery ttyS1
    return none
  else return some (apnOf (echoed (smsapnLine result)), qosOf (echoed (smsapnLine result)))

def smsDmonTurn (vars : SmsVars) : Prog Op Ans SmsVars :=
  match vars.state with
  | .uninitialized => do
      let present ← isModemExist
      if present = true then return { vars with state := .setTextMode } else return vars
  | .setTextMode => do
      echo (ascii "AT+CMGF=1") ttyS1
      return { vars with state := .checkSms }
  | .checkSms => do
      let found ← getNewSms
      match found with
      | some (apn, qos) => return ⟨.settingApn, apn, qos⟩
      | none => return { vars with state := .wait }
  | .settingApn => do
      echo (cgdcont vars.apnText) ttyS1
      return { vars with state := .settingQos }
  | .settingQos => do
      echo (cgeqreq vars.qosText) ttyS1
      killall "pppd"
      return { vars with state := .deleteSms }
  | .deleteSms => do
      echo deleteFirst ttyS1
      return ⟨.wait, [], []⟩
  | .wait => return { vars with state := .setTextMode }

inductive Sms where
  | readable (header text : Bytes)
  | unreadable (code : Nat)
deriving DecidableEq

-- A message in its slot, with the number of commands the daemon had issued
-- when it came in.
structure Stored where
  sms : Sms
  since : Nat
deriving DecidableEq

-- Slot 1 of the modem is the head of the list; `log` holds the rows of
-- /var/log/modem and `sent` every command issued so far.
structure Modem where
  slots : List (Option Stored)
  log : List Bytes
  sent : List Bytes
deriving DecidableEq

def firstReply (slots : List (Option Stored)) : List Bytes :=
  match slots.head? with
  | some (some ⟨.readable header text, _⟩) => (ascii "+CMGR: " ++ header) :: (lines text ++ [ascii "OK"])
  | some (some ⟨.unreadable code, _⟩) => [ascii "+CME ERROR: " ++ decimal code]
  | _ => [ascii "OK"]

-- A command deletes what it says, and the log gets its echo and its reply.
def Modem.command (modem : Modem) (text : Bytes) : Modem where
  slots :=
    if text = deleteEvery then modem.slots.map fun _ => none
    else if text = deleteFirst then modem.slots.set 0 none
    else modem.slots
  log := modem.log ++ text :: (if text = readFirst then firstReply modem.slots else [ascii "OK"])
  sent := modem.sent ++ [text]

def smsEffect (modem : Modem) : Event Op Ans → Option Modem
  | ⟨.echo text file, _⟩ => some (if file = ttyS1 then modem.command text else modem)
  | ⟨.script path, output⟩ => if path = newSmsPath ∧ output ≠ getNewSmsSh modem.log then none else some modem
  | _ => some modem

def Modem.receive (modem : Modem) (sms : Sms) : Modem :=
  { modem with slots := modem.slots.set (modem.slots.findIdx Option.isNone) (some ⟨sms, modem.sent.length⟩) }

def arrives (before after : Modem) : Bool :=
  match after.slots[before.slots.findIdx Option.isNone]? with
  | some (some stored) => decide (after = before.receive stored.sms)
  | _ => false

def rowsAdded (before after : Modem) : List Bytes := after.log.drop before.log.length

-- Between the daemon's steps a message comes in, or the modem and the other
-- programs on its port write rows to the log; none of those reads messages.
def smsDrifts (before after : Modem) : Bool :=
  arrives before after ||
    (decide (after = { before with log := before.log ++ rowsAdded before after }) &&
    (rowsAdded before after).all (!occurs cmgr ·))

theorem after_last_quiet (hit : Bytes → Bool) (rows added : List Bytes) (quiet : ∀ row ∈ added, hit row = false) :
    afterLast hit (rows ++ added) = (afterLast hit rows).map (· ++ added) := by
  induction rows with
  | nil =>
      induction added with
      | nil => rfl
      | cons row added ih =>
          rw [List.forall_mem_cons] at quiet
          have none : afterLast hit added = none := ih quiet.2
          simp [afterLast, none, quiet.1]
  | cons row rows ih =>
      rw [List.cons_append, afterLast, afterLast, ih]
      cases afterLast hit rows with
      | none => cases hit row <;> rfl
      | some rest => rfl

theorem after_last_hit (hit : Bytes → Bool) (front rows : List Bytes) (row : Bytes) (here : hit row = true) :
    afterLast hit (front ++ row :: rows) = some ((afterLast hit rows).getD rows) := by
  induction front with
  | nil =>
      rw [List.nil_append, afterLast, here]
      cases afterLast hit rows with
      | none => rfl
      | some rest => rfl
  | cons other front ih => rw [List.cons_append, afterLast, ih]

theorem after_last_suffix (hit : Bytes → Bool) (rows : List Bytes) : (afterLast hit rows).getD rows <:+ rows := by
  induction rows with
  | nil => exact List.suffix_rfl
  | cons row rows ih =>
      rw [afterLast]
      cases found : afterLast hit rows with
      | some rest =>
          rw [found] at ih
          exact ih.trans (List.suffix_cons row rows)
      | none =>
          cases hit row with
          | true => exact List.suffix_cons row rows
          | false => exact List.suffix_rfl

-- The answer to the last AT+CMGR=1, with whatever was logged behind it. A
-- message can quote AT+CMGR, so the script may start inside the answer.
theorem new_sms_reply (log reply added front : List Bytes) (last : Bytes) (shape : reply.filter (!·.isEmpty) = front ++
    [last]) (final : occurs cmgr last = false) (quiet : ∀ row ∈ added, occurs cmgr row = false) :
    ∃ tail, tail <:+ front ∧
      getNewSmsSh (log ++ readFirst :: reply ++ added) = smsReply (tail ++ last :: added.filter (!·.isEmpty)) := by
  refine ⟨(afterLast (occurs cmgr) front).getD front, after_last_suffix _ front, ?_⟩
  have rows : (log ++ readFirst :: reply ++ added).filter (!·.isEmpty) =
      log.filter (!·.isEmpty) ++ readFirst :: (front ++ last :: added.filter (!·.isEmpty)) := by
    rw [List.filter_append, List.filter_append, List.filter_cons_of_pos rfl, shape]
    simp
  have later : ∀ row ∈ last :: added.filter (!·.isEmpty), occurs cmgr row = false := by
    rw [List.forall_mem_cons]
    exact ⟨final, fun row member => quiet row (List.mem_of_mem_filter member)⟩
  rw [getNewSmsSh, rows, after_last_hit (occurs cmgr) _ _ readFirst (by decide), after_last_quiet _ _ _ later]
  cases afterLast (occurs cmgr) front with
  | none => rfl
  | some rest => rfl

def Mentions (result : Bytes) : Prop := occurs smsapn (echoed result) = true

theorem mentions_echoed (line : Bytes) (found : Mentions (echoed line)) : occurs smsapn line = true := by
  have plain : ∀ c ∈ smsapn, isIfs c = false := by
    have letters : (smsapn.all fun c => !isIfs c) = true := by decide
    exact fun c member => by simpa using List.all_eq_true.mp letters c member
  exact occurs_echoed smsapn line plain (by decide) (occurs_echoed smsapn _ plain (by decide) found)

theorem backquote_echoed (line : Bytes) : backquote (echoed line ++ [10]) = echoed line :=
  backquote_line _ (echoed_line line)

theorem sms_reply_cons (first : Bytes) (rest : List Bytes) : smsReply (first :: rest) =
    if awkField 1 first = ascii "+CMGR:" then echoed (rest.head?.getD []) ++ [10]
    else if awkField 1 first = ascii "OK" then ascii "none" ++ [10]
    else if awkField 1 first = ascii "+CME" then echoed first ++ [10]
    else ascii "URC MESSAGE" ++ [10] := by
  rw [List.head?_eq_getElem?]
  rfl

theorem mentions_texts : ¬Mentions (backquote (ascii "none" ++ [10])) ∧
    ¬Mentions (backquote (ascii "URC MESSAGE" ++ [10])) ∧ ¬Mentions (backquote (echoed (ascii "OK") ++ [10])) := by
  unfold Mentions
  decide

theorem reply_line (tail added : List Bytes) (found : Mentions (backquote (smsReply (tail ++ ascii "OK" :: added)))) :
    ∃ line, backquote (smsReply (tail ++ ascii "OK" :: added)) = echoed line ∧ occurs smsapn line = true ∧
      (line ∈ tail.tail ∨ line ∈ tail ∧ awkField 1 line = ascii "+CME") := by
  obtain ⟨noneSilent, urcSilent, okSilent⟩ := mentions_texts
  cases tail with
  | nil => exact absurd found noneSilent
  | cons first more =>
      rw [List.cons_append, sms_reply_cons] at found ⊢
      by_cases header : awkField 1 first = ascii "+CMGR:"
      · rw [if_pos header] at found ⊢
        cases more with
        | nil => exact absurd found okSilent
        | cons line others =>
            rw [List.cons_append, List.head?_cons, Option.getD_some, backquote_echoed] at found ⊢
            exact ⟨line, rfl, mentions_echoed line found, Or.inl List.mem_cons_self⟩
      · rw [if_neg header] at found ⊢
        by_cases ok : awkField 1 first = ascii "OK"
        · rw [if_pos ok] at found
          exact absurd found noneSilent
        · rw [if_neg ok] at found ⊢
          by_cases error : awkField 1 first = ascii "+CME"
          · rw [if_pos error, backquote_echoed] at found ⊢
            exact ⟨first, rfl, mentions_echoed first found, Or.inr ⟨List.mem_cons_self, error⟩⟩
          · rw [if_neg error] at found
            exact absurd found urcSilent

theorem error_row (code : Nat) (c : UInt8) (letter : isDigit c = false) (other : c ∉ ascii "+CME ERROR: ") :
    c ∉ ascii "+CME ERROR: " ++ decimal code := by
  intro member
  cases List.mem_append.mp member with
  | inl front => exact other front
  | inr digit =>
      rw [decimal_digits code c digit] at letter
      cases letter

theorem first_word (word rest : Bytes) (plain : isWord word = true) : awkField 1 (word ++ 32 :: rest) = word := by
  rw [awkField, words_word_space word rest 32 plain rfl]
  rfl

theorem header_word (header : Bytes) : awkField 1 (ascii "+CMGR: " ++ header) = ascii "+CMGR:" :=
  first_word (ascii "+CMGR:") header (by decide)

theorem error_word (code : Nat) : awkField 1 (ascii "+CME ERROR: " ++ decimal code) = ascii "+CME" :=
  first_word (ascii "+CME") (ascii "ERROR: " ++ decimal code) (by decide)

theorem awk_field_echoed (n : Nat) (text : Bytes) :
    awkField n (replaceAll [58] [32] (echoed text)) = awkField n (replaceAll [58] [32] text) := by
  have blanks : ∀ c, isIfs c = true → isSpace (if c = 58 then 32 else c) = true := by
    intro c ifs
    split
    · rfl
    · exact ifs_space c ifs
  rw [replace_byte, replace_byte, awkField, awkField, words_echoed _ blanks]

theorem values_echoed (text : Bytes) : apnOf (echoed text) = apnOf text ∧ qosOf (echoed text) = qosOf text := by
  simp only [apnOf, qosOf, awk_field_echoed, and_self]

theorem suffix_tail (tail rows : List Bytes) (row line : Bytes) (part : tail <:+ row :: rows)
    (member : line ∈ tail.tail) : line ∈ rows := by
  cases List.suffix_cons_iff.mp part with
  | inl whole => rwa [whole, List.tail_cons] at member
  | inr inner => exact inner.subset (List.mem_of_mem_tail member)

theorem new_sms_source (slots : List (Option Stored)) (log added : List Bytes) (quiet : ∀ row ∈ added, occurs cmgr row =
    false) (found : Mentions (backquote (getNewSmsSh (log ++ readFirst :: firstReply slots ++ added)))) :
    ∃ header text since line, slots[0]? = some (some ⟨.readable header text, since⟩) ∧ line ∈ lines text ∧
    occurs smsapn line = true ∧
      backquote (getNewSmsSh (log ++ readFirst :: firstReply slots ++ added)) = echoed line := by
  have okFinal : occurs cmgr (ascii "OK") = false := by decide
  rw [← List.head?_eq_getElem?]
  match slots with
  | some ⟨.readable header text, since⟩ :: others =>
      have shape : (firstReply (some ⟨.readable header text, since⟩ :: others)).filter (!·.isEmpty) =
          ((ascii "+CMGR: " ++ header) :: (lines text).filter (!·.isEmpty)) ++ [ascii "OK"] := by
        rw [firstReply, List.head?_cons, List.filter_cons_of_pos rfl, List.filter_append]
        rfl
      obtain ⟨tail, part, output⟩ := new_sms_reply log _ added _ _ shape okFinal quiet
      rw [output] at found ⊢
      obtain ⟨line, same, hit, place⟩ := reply_line tail _ found
      refine ⟨header, text, since, line, rfl, ?_, hit, same⟩
      have inBody : line ∈ (lines text).filter (!·.isEmpty) := by
        cases place with
        | inl later => exact suffix_tail tail _ _ line part later
        | inr error =>
            cases List.mem_cons.mp (part.subset error.1) with
            | inl first => exact absurd (first ▸ error.2) (by rw [header_word]; decide)
            | inr later => exact later
      exact List.mem_of_mem_filter inBody
  | some ⟨.unreadable code, since⟩ :: others =>
      have final := error_row code 65 rfl (by decide)
      obtain ⟨tail, part, output⟩ := new_sms_reply log (firstReply (some ⟨.unreadable code, since⟩ :: others)) added
        [] _ rfl
        (occurs_absent 65 _ _ final) quiet
      rw [output, List.suffix_nil.mp part, List.nil_append, sms_reply_cons, error_word code, if_neg (by decide),
        if_neg (by decide), if_pos rfl, backquote_echoed] at found
      have hit := mentions_echoed _ found
      have miss : occurs smsapn _ = false := occurs_absent 115 _ _ (error_row code 115 rfl (by decide))
      rw [miss] at hit
      cases hit
  | none :: others =>
      obtain ⟨tail, part, output⟩ := new_sms_reply log (firstReply (none :: others)) added [] _ rfl okFinal quiet
      rw [output, List.suffix_nil.mp part] at found
      exact absurd found mentions_texts.1
  | [] =>
      obtain ⟨tail, part, output⟩ := new_sms_reply log (firstReply []) added [] _ rfl okFinal quiet
      rw [output, List.suffix_nil.mp part] at found
      exact absurd found mentions_texts.1

end Ftm50s.Daemons
