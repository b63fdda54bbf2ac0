import Ftm50s.Cgi.Request

set_option autoImplicit false

namespace Ftm50s.Profile

open Lib.Text Lib.Decimal Ftm50s.Cgi

def maxModelLen : Nat := 64
def maxSnLen : Nat := 32
def maxLocationLen : Nat := 64
def maxUserIdLen : Nat := 32
def maxPwLen : Nat := 32

-- The character arrays as the C strings they hold.
structure Config where
  szModel : Bytes
  szSerialNumber : Bytes
  szLocation : Bytes
  szUserID : Bytes
  szPasswd : Bytes
  nTimeout : Int
deriving DecidableEq, Repr

def zeroConfig : Config := ⟨[], [], [], [], [], 0⟩

structure Files where
  httpdConf : Option Bytes
  model : Option Bytes
  sn : Option Bytes
deriving DecidableEq, Repr

-- What the stack happens to hold where the code reads a variable that no scan
-- has filled: the line buffer before the first line, and nTimeout on a
-- timeout line without a number.
structure Stale where
  szBuf : Bytes
  nTimeout : Bytes → BitVec 32

structure LoadState where
  config : Config
  szBuf : Bytes

-- FTMC_SkipSpace cuts trailing white space by storing NULs into the line
-- buffer, unless nothing but white space follows the tag.
def skipSpaceBuffer (line rest : Bytes) : Bytes := if trim rest = [] then line else line.rdropWhile isSpace

-- One turn of the loop over /etc/httpd.conf; none when the first word runs over
-- szTag. The value is looked for behind as many bytes as the tag is long,
-- counted from the start of the line and not from the tag.
def loadLine (stale : Stale) (state : LoadState) (raw : Bytes) : Option LoadState :=
  let line := cstr raw
  if line.head? = some 35 then some { state with szBuf := line }
  else
    match words line with
    | [] => some { state with szBuf := line }
    | tag :: _ =>
        let rest := line.drop tag.length
        if 32 ≤ tag.length then none
        else if tag = ascii "location:" then
          some ⟨{ state.config with szLocation := (trim rest).take maxLocationLen }, skipSpaceBuffer line rest⟩
        else if tag = ascii "userid:" then
          some ⟨{ state.config with szUserID := (trim rest).take maxUserIdLen }, skipSpaceBuffer line rest⟩
        else if tag = ascii "passwd:" then
          some ⟨{ state.config with szPasswd := (trim rest).take maxPwLen }, skipSpaceBuffer line rest⟩
        else if tag = ascii "timeout:" then
          let nTimeout := (scanInt rest).getD (stale.nTimeout line).toInt
          if nTimeout < 0 then some ⟨{ state.config with nTimeout := nTimeout }, skipSpaceBuffer line rest⟩
          else some { state with szBuf := skipSpaceBuffer line rest }
        else some { state with szBuf := line }

-- fscanf("%s") into the line buffer: without a word the old content stays.
def scanFile (szBuf content : Bytes) : Option Bytes :=
  match words content with
  | [] => some szBuf
  | word :: _ => if 512 ≤ word.length then none else some (cstr word)

def loadModel (file : Option Bytes) (state : LoadState) : Option LoadState :=
  match file with
  | none => some state
  | some content =>
      (scanFile state.szBuf content).map fun szBuf =>
        ⟨{ state.config with szModel := szBuf.take maxModelLen }, szBuf⟩

-- strncpy stores as many bytes as szModel takes, 31 more than szSerialNumber
-- has; they land in szLocation, which follows it.
def serialStore (szBuf : Bytes) : Bytes := padTo maxModelLen 0 (szBuf.take maxModelLen)

def locationTail (szLocation : Bytes) : Bytes :=
  (padTo (maxLocationLen + 1) 0 szLocation).drop (maxModelLen - (maxSnLen + 1))

def loadSerial (file : Option Bytes) (state : LoadState) : Option LoadState :=
  match file with
  | none => some state
  | some content =>
      (scanFile state.szBuf content).map fun szBuf =>
        ⟨{ state.config with
            szSerialNumber := cstr (serialStore szBuf ++ locationTail state.config.szLocation)
            szLocation := cstr ((serialStore szBuf).drop (maxSnLen + 1) ++ locationTail state.config.szLocation) },
            szBuf⟩

-- none: a scan ran over its buffer; some none: the function returned -1.
def loadProfileConfig (stale : Stale) (files : Files) : Option (Option Config) :=
  match files.httpdConf with
  | none => some none
  | some conf =>
      ((fgets 512 conf).foldlM (loadLine stale) ⟨zeroConfig, cstr stale.szBuf⟩).bind fun lines =>
        (loadModel files.model lines).bind fun model =>
          (loadSerial files.sn model).map fun serial => some serial.config

def profileText (config : Config) : Bytes :=
  ascii "location: " ++ config.szLocation ++ ascii "\n" ++
  (ascii "userid: " ++ config.szUserID ++ ascii "\n" ++
  (ascii "passwd: " ++ config.szPasswd ++ ascii "\n" ++
  (ascii "timeout: " ++ decimalInt config.nTimeout ++ ascii "\n")))

-- The file is made under /tmp and copied; none when it cannot be created.
def saveProfileConfig (creatable : Bool) (files : Files) (config : Config) : Option Files :=
  if creatable then some { files with httpdConf := some (profileText config) } else none

def saveAnswer (creatable : Bool) (files : Files) (config : Config) : Files × Bytes :=
  match saveProfileConfig creatable files config with
  | some next => (next, putHeader ++ putOK "SYSTEM")
  | none => (files, putHeader ++ putError "SYSTEM" (some "Failed to save profile data."))

-- FTMC_System, cmd=chg_loc
def chgLoc (stale : Stale) (creatable : Bool) (files : Files) (req : Request) : Option (Files × Bytes) :=
  (loadProfileConfig stale files).map fun loaded =>
    match loaded with
    | none => (files, putHeader ++ putError "PROFILE" (some "Failed to load profile data."))
    | some config =>
        match getstr req "loc" with
        | none => (files, putHeader ++ putError "SYSTEM" (some "Invalid location length."))
        | some loc =>
            if maxLocationLen < loc.length then
              (files, putHeader ++ putError "SYSTEM" (some "Invalid location length."))
            else saveAnswer creatable files { config with szLocation := loc }

-- strcpy(xProfile.szPasswd, lpszNewPasswd) checks nothing. Behind szPasswd lie
-- padding, nTimeout and the caller's frame, so an overrun is undefined.
def copyPasswd (config : Config) (passwd : Bytes) : Option Config :=
  if maxPwLen < passwd.length then none else some { config with szPasswd := passwd }

-- FTMC_System, cmd=chg_passwd. The length that is checked is the old password's.
def chgPasswd (stale : Stale) (creatable : Bool) (files : Files) (req : Request) : Option (Files × Bytes) :=
  (loadProfileConfig stale files).bind fun loaded =>
    match loaded with
    | none => some (files, putHeader ++ putError "PROFILE" (some "Failed to load profile data."))
    | some config =>
        match getstr req "passwd", getstr req "new_passwd" with
        | some passwd, some newPasswd =>
            if maxPwLen < passwd.length ∨ config.szPasswd ≠ passwd then
              some (files, putHeader ++ putError "SYSTEM" (some "Invalid password."))
            else (copyPasswd config newPasswd).map fun changed => saveAnswer creatable files changed
        | _, _ => some (files, putHeader ++ putError "SYSTEM" (some "Invalid password."))

end Ftm50s.Profile
