import Ftm50s.Daemons.Shell

set_option autoImplicit false

namespace Ftm50s.Daemons
open Lib.Text Lib.Filter Lib.Decimal Lib.Daemon

inductive Stat where
  | uninitialized | initQos | initApn | rssiCheck | initialized | simReady | registered
  | waitingForPppConnectionCompleted | longtermWaiting | checkPppd | pppConnectionCompleted | pppIsDisconnected
deriving DecidableEq, Repr

structure Vars where
  stat : Stat
  nextStat : Stat
  retry : Int
  rssiRetry : Int
deriving DecidableEq, Repr

def startVars : Vars := ⟨.uninitialized, .uninitialized, 0, 0⟩

def maxRetry : Int := 3

def rssiMaxRetry : Int := 3

def ttyS1 : String := "/dev/ttyS1"

def nwcauseFile : String := "/tmp/nwcause"

def sending : Bytes := ascii "sending"

def connectIs (text : String) : Prog Op Ans Unit := echo (ascii text) "/tmp/ppp.connect"

def initQos : Prog Op Ans Bool := do
  let output ← mmd "at+cgeqreq=2,2,8,384"
  return backquote output == ascii "OK"

def initApn : Prog Op Ans Bool := do
  let output ← mmd "at+cgdcont=2,IP,biz.ktfwing.com,0.0.0.0,0,0"
  return backquote output == ascii "OK"

def isModemExist : Prog Op Ans Bool := do
  echo (ascii "AT") ttyS1
  let output ← script "/www/cgi-bin/scripts/is_modem.sh"
  return backquote output == ascii "true"

def isReady : Prog Op Ans Bool := do
  echo (ascii "AT+CPIN?") ttyS1
  let output ← script "/www/cgi-bin/scripts/usim.sh"
  return backquote output == ascii "+CPIN: READY"

def registeredLine (line : Bytes) : Bool :=
  occurs (ascii "+CREG:") (awkField 1 line) &&
    match splitFields 44 (awkField 2 line) with
    | [_, second] => second == ascii "1"
    | _ => false

def isRegistered : Prog Op Ans Bool := do
  echo (ascii "AT+CREG?") ttyS1
  let output ← script "/www/cgi-bin/scripts/is_registered.sh"
  return (lines output).any registeredLine

def hasPpp0 (dev : Bytes) : Bool := (lines dev).any fun line => (ascii "ppp0").isPrefixOf (awkField 1 line)

def isPppConnected : Prog Op Ans Bool := do
  let dev ← cat "/proc/net/dev"
  return hasPpp0 dev

def rssiOf (status : Bytes) : Bytes :=
  let shown := (lines status).filter (occurs (ascii "RFSTS"))
  backquote (unlines (shown.map fun line => awkField 7 (replaceAll [44] [32] line)))

def getRssi : Prog Op Ans Bytes := do
  echo (ascii "AT#RFSTS") ttyS1
  let status ← script "/www/cgi-bin/scripts/network_status.sh"
  return rssiOf status

-- [ $RSSI -le -90 ] on an unquoted variable: more than one word, or a word that
-- is no number, is an error of test and counts as false.
def isWeak (rssi : Bytes) : Bool :=
  match words rssi with
  | [word] => (testOperand word).any (fun level => decide (level ≤ -90))
  | _ => false

def killPppd : Prog Op Ans Unit := do
  let pids ← pidof "pppd"
  if pids ≠ [] then kill15 pids

def launchPppd : Prog Op Ans Unit := pppd "file /etc/ppp/scripts/uc864-e"

def statUninitialized (vars : Vars) : Prog Op Ans Vars := do
  connectIs "running"
  let found ← isModemExist
  if found then
    echo (ascii "AT+CPIN=0000") ttyS1
    echo (ascii "ATE1") ttyS1
    echo (ascii "AT+CMEE=1") ttyS1
    echo (ascii "AT#NWCAUSE=0,0,1,1") ttyS1
    return { vars with nextStat := .rssiCheck }
  else return vars

def statInitQos (vars : Vars) : Prog Op Ans Vars := do
  let ready ← isReady
  if ready then
    let set ← initQos
    if set then return { vars with nextStat := .initApn } else return vars
  else return vars

def statInitApn (vars : Vars) : Prog Op Ans Vars := do
  let ready ← isReady
  if ready then
    let set ← initApn
    if set then
      echo (ascii "enabled") "/etc/initQos.conf"
      return { vars with nextStat := .rssiCheck }
    else return vars
  else return vars

-- A weak signal with ppp0 up kills pppd and asks for the long wait, but the
-- retry counter below assigns the next state again.
def statRssiCheck (vars : Vars) : Prog Op Ans Vars := do
  let rssi ← getRssi
  if rssi ≠ [] then
    if isWeak rssi then
      connectIs "running"
      let connected ← isPppConnected
      let vars ← if connected then do
          killPppd
          pure { vars with nextStat := .longtermWaiting }
        else pure vars
      if vars.rssiRetry < rssiMaxRetry then
        return { vars with rssiRetry := vars.rssiRetry + 1, nextStat := .initialized }
      else
        killPppd
        return { vars with rssiRetry := 0, nextStat := .longtermWaiting }
    else
      let connected ← isPppConnected
      if connected then return { vars with nextStat := .pppConnectionCompleted }
      else return { vars with nextStat := .initialized }
  else return vars

def statInitialized (vars : Vars) : Prog Op Ans Vars := do
  connectIs "running"
  let ready ← isReady
  if ready then return { vars with nextStat := .simReady } else return vars

def statSimReady (vars : Vars) : Prog Op Ans Vars := do
  connectIs "running"
  let registered ← isRegistered
  if registered then return { vars with nextStat := .registered } else return vars

def statRegistered (vars : Vars) : Prog Op Ans Vars := do
  connectIs "stop"
  let connected ← isPppConnected
  if connected then return { vars with nextStat := .pppConnectionCompleted }
  else
    let res ← cat nwcauseFile
    if backquote res = sending then
      launchPppd
      return { vars with nextStat := .waitingForPppConnectionCompleted, retry := 0 }
    else return { vars with nextStat := .longtermWaiting }

def statWaiting (vars : Vars) : Prog Op Ans Vars := do
  connectIs "running"
  return { vars with nextStat := .checkPppd }

def statLongtermWaiting (vars : Vars) : Prog Op Ans Vars := do
  connectIs "stop"
  return { vars with nextStat := .registered }

def statCheckPppd (vars : Vars) : Prog Op Ans Vars := do
  connectIs "running"
  let pids ← pidof "pppd"
  if pids = [] then
    if vars.retry < maxRetry then
      let res ← cat nwcauseFile
      if backquote res = sending then
        launchPppd
        return { vars with retry := vars.retry + 1, nextStat := .waitingForPppConnectionCompleted }
      else return { vars with nextStat := .longtermWaiting }
    else return { vars with retry := 0, nextStat := .longtermWaiting }
  else
    let connected ← isPppConnected
    if connected then return { vars with nextStat := .pppConnectionCompleted } else return vars

def statPppConnectionCompleted (vars : Vars) : Prog Op Ans Vars := do
  connectIs "stop"
  let pids ← pidof "pppd"
  if pids = [] then return { vars with nextStat := .pppIsDisconnected }
  else return { vars with nextStat := .rssiCheck }

def statPppIsDisconnected (vars : Vars) : Prog Op Ans Vars := do
  connectIs "stop"
  return { vars with nextStat := .registered }

def caseStat (vars : Vars) : Prog Op Ans Vars :=
  match vars.stat with
  | .uninitialized => statUninitialized vars
  | .initQos => statInitQos vars
  | .initApn => statInitApn vars
  | .rssiCheck => statRssiCheck vars
  | .initialized => statInitialized vars
  | .simReady => statSimReady vars
  | .registered => statRegistered vars
  | .waitingForPppConnectionCompleted => statWaiting vars
  | .longtermWaiting => statLongtermWaiting vars
  | .checkPppd => statCheckPppd vars
  | .pppConnectionCompleted => statPppConnectionCompleted vars
  | .pppIsDisconnected => statPppIsDisconnected vars

def changeStat (vars : Vars) : Vars := if vars.stat ≠ vars.nextStat then { vars with stat := vars.nextStat } else vars

def newMmonTurn (vars : Vars) : Prog Op Ans Vars := do
  let vars ← caseStat vars
  return changeStat vars

end Ftm50s.Daemons
