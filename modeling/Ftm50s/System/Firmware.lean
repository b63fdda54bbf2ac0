import Ftm50s.Cgi.Request
import Ftm50s.Lib.Memory

set_option autoImplicit false

namespace Ftm50s.System

open Lib.Text Lib.Decimal Lib.Mem Ftm50s.Cgi

def magic : BitVec 32 := 0x27051956#32

def nameLen : Nat := 32

def headerSize : Nat := 64

-- The fields of FTMC_IMAGE_HEADER that are read anywhere, as they lie in memory.
structure ImageHeader where
  uiMagic : BitVec 32
  uiTime : BitVec 32
  uiSize : BitVec 32
  uiName : Bytes
deriving DecidableEq, Repr

inductive ImageType where
  | xloader | uboot | kernel | ramdisk
deriving DecidableEq, Repr

def htonl (word : BitVec 32) : BitVec 32 :=
  word.extractLsb' 0 8 ++ word.extractLsb' 8 8 ++ word.extractLsb' 16 8 ++ word.extractLsb' 24 8

-- strncmp(text, literal, n) == 0 for NUL-free text
def strncmpZero (text literal : Bytes) (n : Nat) : Bool := decide (text.take n = literal.take n)

def headerOf (image : Bytes) : ImageHeader :=
  let mem : Memory := fun i => image.getD i 0
  ⟨readWord mem 0, readWord mem 8, readWord mem 12, readBytes mem 32 nameLen⟩

-- FTMC_ReadImageHeader of a file that may be missing; none stands for -1.
def readImageHeader (file : Option Bytes) : Option ImageHeader :=
  match file with
  | none => none
  | some image =>
      if image.length < headerSize then none
      else if htonl (headerOf image).uiMagic ≠ magic then none
      else some (headerOf image)

def szName (header : ImageHeader) : Bytes := cstr header.uiName

def classify (name : Bytes) : Option ImageType :=
  if name = ascii "XLOADER" then some .xloader
  else if strncmpZero name (ascii "U-Boot") 6 then some .uboot
  else if strncmpZero name (ascii "Linux") 5 then some .kernel
  else if strncmpZero name (ascii "Ramdisk") 5 then some .ramdisk
  else none

def typeText : ImageType → Bytes
  | .xloader => ascii "XLOADER"
  | .uboot => ascii "UBOOT"
  | .kernel => ascii "KERNEL"
  | .ramdisk => ascii "RAMDISK"

def printImageHeader (header : ImageHeader) : Bytes :=
  ascii "<IMG_INFO>\n" ++ ((classify (szName header)).elim [] fun kind => element (ascii "TYPE") (typeText kind)) ++
    element (ascii "TIME") (decimalInt (htonl header.uiTime).toInt) ++
    element (ascii "SIZE") (decimalInt (htonl header.uiSize).toInt) ++
    element (ascii "DESC") (szName header) ++ ascii "</IMG_INFO>\n"

-- What the file system does with one upload: whether /tmp/new_fw opens, how many
-- bytes fwrite counts, and how many of these are in the file after fclose.
structure Disk where
  opens : Bool
  counted : Nat
  stored : Nat
deriving DecidableEq, Repr

inductive UploadReply where
  | selectFile
  | notSaved
  | invalid
  | ok (header : ImageHeader)
deriving DecidableEq, Repr

def uploadText : UploadReply → Bytes
  | .selectFile => putHeader ++ putError "SYSTEM" (some "Select file, please.")
  | .notSaved => putHeader ++ putError "SYSTEM" (some "A problem occurred while saving the file.")
  | .invalid => putHeader ++ putError "SYSTEM" (some "Invalid firmware.")
  | .ok header =>
      putHeader ++ ascii "<SYSTEM>\n" ++ printImageHeader header ++ element (ascii "RET") (ascii "OK") ++
        ascii "</SYSTEM>\n"

-- FTMC_System, cmd=fw_upload: the new content of /tmp/new_fw and the reply. The
-- object behind lpszData ends with a NUL of its own; a length beyond it makes
-- fwrite read foreign memory, which none stands for.
def fwUpload (disk : Disk) (newFw : Option Bytes) (req : Request) : Option (Option Bytes × UploadReply) :=
  match getData req (ascii "file"), getstr req "file.filename" with
  | some data, some _ =>
      let nLength := getint req "file.length"
      if nLength = 0 then some (newFw, .selectFile)
      else if !disk.opens then some (newFw, .notSaved)
      else if nLength < 0 ∨ data.length + 1 < nLength then none
      else
        let nWriteLen := min nLength.toNat disk.counted
        let file := (data ++ [0]).take (min nWriteLen disk.stored)
        if nWriteLen ≠ nLength.toNat then some (some file, .notSaved)
        else
          match readImageHeader (some file) with
          | none => some (some file, .invalid)
          | some header => some (some file, .ok header)
  | _, _ => some (newFw, .selectFile)

inductive Script where
  | updateKernel | updateRamdisk
deriving DecidableEq, Repr

-- FTMC_System, cmd=fw_upgrade: the script that popen starts, if any
def fwUpgrade (req : Request) : Option Script :=
  match getstr req "fn" with
  | none => none
  | some lpszFileName =>
      if strncmpZero lpszFileName (ascii "UBOOT") 5 then none
      else if strncmpZero lpszFileName (ascii "kernel") 5 then some .updateKernel
      else if strncmpZero lpszFileName (ascii "ramdisk") 7 then some .updateRamdisk
      else none

inductive FwRequest where
  | upload (disk : Disk) (req : Request)
  | upgrade (req : Request)

def fwStep (newFw : Option Bytes) : FwRequest → Option (Option Bytes)
  | .upload disk req => (fwUpload disk newFw req).map Prod.fst
  | .upgrade _ => some newFw

def fwRun (newFw : Option Bytes) (requests : List FwRequest) : Option (Option Bytes) := requests.foldlM fwStep newFw

def isUpgrade : FwRequest → Bool
  | .upload _ _ => false
  | .upgrade _ => true

def LatestUpload (past before : List FwRequest) (disk : Disk) (up : Request) (after : List FwRequest) : Prop :=
  past = before ++ .upload disk up :: after ∧ after.all isUpgrade = true

-- qdecoder's own length entry is the one found, and fclose loses nothing.
def Whole (disk : Disk) (up : Request) (data : Bytes) : Prop :=
  getData up (ascii "file") = some data ∧ getint up "file.length" = data.length ∧ data.length ≤ disk.stored

theorem read_image_header_spec (file : Option Bytes) (header : ImageHeader)
    (accepted : readImageHeader file = some header) :
    ∃ image, file = some image ∧ headerSize ≤ image.length ∧ htonl header.uiMagic = magic ∧
    header = headerOf image := by
  unfold readImageHeader at accepted
  repeat' split at accepted
  · cases accepted
  · cases accepted
  · cases accepted
  · rename_i image long same
    obtain rfl := Option.some.inj accepted
    exact ⟨image, rfl, by omega, not_not.mp same, rfl⟩

theorem fw_upload_ok (disk : Disk) (newFw file : Option Bytes) (up : Request) (header : ImageHeader)
    (answer : fwUpload disk newFw up = some (file, .ok header)) :
    readImageHeader file = some header ∧ ∃ data, getData up (ascii "file") = some data ∧
      file = some ((data ++ [0]).take (min (getint up "file.length").toNat disk.stored)) := by
  unfold fwUpload at answer
  split at answer
  · rename_i data name given _
    simp only at answer
    repeat' split at answer
    all_goals simp only [Option.some.injEq, Prod.mk.injEq, reduceCtorEq, and_false, UploadReply.ok.injEq] at answer
    rename_i counted _ _ read
    obtain ⟨rfl, rfl⟩ := answer
    rw [not_not.mp counted] at read ⊢
    exact ⟨read, data, given, rfl⟩
  · simp at answer

theorem fw_upload_whole (disk : Disk) (newFw file : Option Bytes) (up : Request) (header : ImageHeader) (data : Bytes)
    (answer : fwUpload disk newFw up = some (file, .ok header)) (whole : Whole disk up data) :
    file = some data ∧ readImageHeader file = some header := by
  obtain ⟨given, length, stored⟩ := whole
  obtain ⟨read, other, otherGiven, content⟩ := fw_upload_ok disk newFw file up header answer
  obtain rfl : data = other := Option.some.inj (given.symm.trans otherGiven)
  refine ⟨?_, read⟩
  rw [content, length, Int.toNat_natCast, min_eq_left stored, List.take_append_of_le_length le_rfl, List.take_length]

theorem fw_run_upgrades (newFw : Option Bytes) (requests : List FwRequest) (quiet : requests.all isUpgrade = true) :
    fwRun newFw requests = some newFw := by
  induction requests with
  | nil => rfl
  | cons request rest ih =>
      obtain ⟨first, others⟩ : isUpgrade request = true ∧ rest.all isUpgrade = true := by simpa using quiet
      cases request with
      | upload disk req => cases first
      | upgrade req => exact ih others

theorem fw_run_split (start : Option Bytes) (before : List FwRequest) (disk : Disk) (up : Request)
    (after : List FwRequest) (middle file : Option Bytes) (reply : UploadReply) (quiet : after.all isUpgrade = true)
      (first : fwRun start before = some middle) (answer : fwUpload disk middle up = some (file, reply)) :
    fwRun start (before ++ .upload disk up :: after) = some file := by
  have step : fwStep middle (.upload disk up) = some file := by rw [fwStep, answer]; rfl
  have last := fw_run_upgrades file after quiet
  rw [fwRun] at first last ⊢
  rw [List.foldlM_append, first]
  simpa [step] using last

-- The target of fw_upgrade comes from its own parameter; what is in the file is
-- settled by the uploads alone.
theorem upgrade_runs_named_script (start newFw : Option Bytes) (past : List FwRequest) (req : Request) (script : Script)
    (run : fwRun start past = some newFw) (started : fwUpgrade req = some script) :
    (∃ fn, getstr req "fn" = some fn ∧ (script = .updateKernel → fn.take 5 = ascii "kerne") ∧
      (script = .updateRamdisk → fn.take 7 = ascii "ramdisk")) ∧
    ∀ before disk up after middle file header data, LatestUpload past before disk up after →
      fwRun start before = some middle → fwUpload disk middle up = some (file, .ok header) → Whole disk up data →
      newFw = some data ∧ readImageHeader newFw = some header ∧ header = headerOf data := by
  constructor
  · unfold fwUpgrade at started
    cases given : getstr req "fn" with
    | none => simp [given] at started
    | some fn =>
        simp only [given] at started
        refine ⟨fn, rfl, ?_, ?_⟩
        · rintro rfl
          repeat' split at started
          all_goals simp only [reduceCtorEq, Option.some.injEq] at started
          rename_i named
          exact (of_decide_eq_true named).trans rfl
        · rintro rfl
          repeat' split at started
          all_goals simp only [reduceCtorEq, Option.some.injEq] at started
          rename_i named
          exact (of_decide_eq_true named).trans rfl
  · rintro before disk up after middle file header data ⟨rfl, quiet⟩ first answer whole
    obtain ⟨content, read⟩ := fw_upload_whole disk middle file up header data answer whole
    have last := fw_run_split start before disk up after middle file _ quiet first answer
    obtain rfl : newFw = file := Option.some.inj (run.symm.trans last)
    obtain ⟨image, same, _, _, own⟩ := read_image_header_spec newFw header read
    refine ⟨content, read, ?_⟩
    rw [own, Option.some.inj (same.symm.trans content)]

def scriptType : Script → ImageType
  | .updateKernel => .kernel
  | .updateRamdisk => .ramdisk

-- A script starts only on the whole image of the latest upload, accepted and of
-- the script's own type.
def FirmwareSafe (start : Option Bytes) (past : List FwRequest) (req : Request) : Prop :=
  ∀ newFw script, fwRun start past = some newFw → fwUpgrade req = some script →
    ∃ before disk up after middle header data, LatestUpload past before disk up after ∧
      fwRun start before = some middle ∧ fwUpload disk middle up = some (newFw, .ok header) ∧
      getData up (ascii "file") = some data ∧ newFw = some data ∧ classify (szName header) = some (scriptType script)

def sampleImage (name : String) : Bytes :=
  [0x27, 0x05, 0x19, 0x56] ++ List.replicate 28 0 ++ padTo nameLen 0 (ascii name) ++ [1, 2, 3]

def sampleDisk : Disk := ⟨true, 1000, 1000⟩

def sampleUpload (name : String) : Request :=
  ⟨[(ascii "file", sampleImage name), (ascii "file.length", ascii "67"), (ascii "file.filename", ascii "new.img")]⟩

def kernelUpgrade : Request := ⟨[(ascii "fn", ascii "kernel")]⟩

theorem upgrade_runs_named_script_kernel :
    fwRun none [.upload sampleDisk (sampleUpload "Linux-2.6"), .upgrade kernelUpgrade] =
    some (some (sampleImage "Linux-2.6")) ∧
      readImageHeader (some (sampleImage "Linux-2.6")) = some (headerOf (sampleImage "Linux-2.6")) := by
  have answer : fwUpload sampleDisk none (sampleUpload "Linux-2.6") =
      some (some (sampleImage "Linux-2.6"), .ok (headerOf (sampleImage "Linux-2.6"))) := by decide
  have run : fwRun none [.upload sampleDisk (sampleUpload "Linux-2.6"), .upgrade kernelUpgrade] =
      some (some (sampleImage "Linux-2.6")) := by decide
  have safe := (upgrade_runs_named_script none _ _ kernelUpgrade .updateKernel run (by decide)).2 []
    sampleDisk (sampleUpload "Linux-2.6") [.upgrade kernelUpgrade] none _ _ (sampleImage "Linux-2.6") ⟨rfl,
    rfl⟩ rfl answer
    ⟨by decide, by decide, by decide⟩
  exact ⟨run, safe.2.1⟩

-- Nothing stands between the parameter and the script: it starts with no upload
-- at all, and on an accepted ramdisk image.
theorem upgrade_starts_unchecked :
    ¬ FirmwareSafe none [] kernelUpgrade ∧
      ¬ FirmwareSafe none [.upload sampleDisk (sampleUpload "Ramdisk")] kernelUpgrade := by
  constructor
  · intro safe
    obtain ⟨before, disk, up, after, _, _, _, ⟨split, _⟩, _⟩ := safe none .updateKernel rfl (by decide)
    simp at split
  · intro safe
    have run : fwRun none [.upload sampleDisk (sampleUpload "Ramdisk")] = some (some (sampleImage "Ramdisk")) := by
      decide
    obtain ⟨before, disk, up, after, middle, header, data, ⟨split, _⟩, first, answer, _, _, kind⟩ :=
      safe _ .updateKernel run (by decide)
    obtain ⟨image, same, _, _, rfl⟩ := read_image_header_spec _ header (fw_upload_ok disk middle _ up header answer).1
    obtain rfl := Option.some.inj same
    exact absurd kind (by decide)

end Ftm50s.System
