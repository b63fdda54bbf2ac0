import Ftm50s.Lib.Path
import Ftm50s.Page.Assembly

set_option autoImplicit false

namespace Ftm50s.Page

open Lib.Text Lib.Path Ftm50s.Cgi

-- The files that FTMC_Page opens for the marks of the base
def pageOpens (files : Files) (req : Request) : List Bytes :=
  match files baseName with
  | none => []
  | some base =>
      ((fgets 1024 base).filterMap markOf).map (innerName (getstr req "cmd")) |>.filter fun name => (files name).isSome

def scriptsRoot : List Bytes := [ascii "www", ascii "scripts"]

def contentsRoot : List Bytes := [ascii "www", ascii "contents"]

def Confined (path : Bytes) : Prop := scriptsRoot <+: resolve path ∨ contentsRoot <+: resolve path

def rootOf : Mark → Bytes
  | .script => ascii "/www/scripts"
  | .content => ascii "/www/contents"

-- What is left of the parameter behind the directory
def relativeName (cmd : Bytes) : Mark → Bytes
  | .script => (cmd ++ ascii ".js").take 1010
  | .content => cmd.take 1009

-- No step above the directory, or back into one of the two
def Returns (route : Route) : Prop :=
  route.ups = 0 ∨
    (route.ups = 1 ∧ (route.names.head? = some (ascii "scripts") ∨ route.names.head? = some (ascii "contents"))) ∨
    (2 ≤ route.ups ∧ (scriptsRoot <+: route.names ∨ contentsRoot <+: route.names))

def Marked (files : Files) (mark : Mark) : Prop :=
  ∃ base szBuf, files baseName = some base ∧ szBuf ∈ fgets 1024 base ∧ markOf szBuf = some mark

theorem inner_name_shape (lpszCmd : Option Bytes) (mark : Mark) :
    innerName lpszCmd mark = rootOf mark ++ 47 :: relativeName (shown lpszCmd) mark := by
  cases mark with
  | script =>
      have front : ascii "/www/scripts/" ++ shown lpszCmd ++ ascii ".js" =
          (ascii "/www/scripts" ++ [47]) ++ (shown lpszCmd ++ ascii ".js") := by
        rw [List.append_assoc]
        rfl
      rw [innerName, scriptName, front, List.take_append]
      simp [rootOf, relativeName, ascii]
  | content =>
      have front : ascii "/www/contents/" ++ shown lpszCmd = (ascii "/www/contents" ++ [47]) ++ shown lpszCmd := rfl
      rw [innerName, contentName, front, List.take_append]
      simp [rootOf, relativeName, ascii]

theorem root_resolved (mark : Mark) : resolve (rootOf mark) = scriptsRoot ∨ resolve (rootOf mark) = contentsRoot := by
  cases mark with
  | script => exact Or.inl (by decide)
  | content => exact Or.inr (by decide)

theorem second_name (first name : Bytes) (names : List Bytes) :
    [first, name] <+: [first] ++ names ↔ names.head? = some name := by
  cases names with
  | nil => simp
  | cons other rest => simp [eq_comm]

theorem follow_confined_iff (root : List Bytes) (valid : root = scriptsRoot ∨ root = contentsRoot) (route : Route) :
    (scriptsRoot <+: follow root route ∨ contentsRoot <+: follow root route) ↔ Returns route := by
  have length : root.length = 2 := by
    rcases valid with rfl | rfl <;> rfl
  have one : root.take 1 = [ascii "www"] := by
    rcases valid with rfl | rfl <;> rfl
  rw [follow, length]
  by_cases none : route.ups = 0
  · rw [none, Nat.sub_zero, ← length, List.take_length]
    constructor
    · exact fun _ => Or.inl none
    · intro _
      rcases valid with rfl | rfl
      · exact Or.inl (List.prefix_append _ _)
      · exact Or.inr (List.prefix_append _ _)
  · by_cases single : route.ups = 1
    · rw [single, one, scriptsRoot, contentsRoot, second_name, second_name]
      constructor
      · exact fun back => Or.inr (Or.inl ⟨single, back⟩)
      · rintro (zero | ⟨_, back⟩ | ⟨more, _⟩)
        · exact absurd zero none
        · exact back
        · omega
    · rw [show 2 - route.ups = 0 by omega, List.take_zero, List.nil_append]
      constructor
      · exact fun back => Or.inr (Or.inr ⟨by omega, back⟩)
      · rintro (zero | ⟨once, _⟩ | ⟨_, back⟩)
        · exact absurd zero none
        · exact absurd once single
        · exact back

theorem inner_confined_iff (lpszCmd : Option Bytes) (mark : Mark) :
    Confined (innerName lpszCmd mark) ↔ Returns (route (relativeName (shown lpszCmd) mark)) := by
  rw [Confined, inner_name_shape, resolve_route]
  exact follow_confined_iff _ (root_resolved mark) _

theorem opens_mem (files : Files) (req : Request) (name : Bytes) : name ∈ pageOpens files req ↔
    ∃ mark, Marked files mark ∧ name = innerName (getstr req "cmd") mark ∧ (files name).isSome = true := by
  rw [pageOpens]
  cases found : files baseName with
  | none =>
      constructor
      · exact fun member => absurd member List.not_mem_nil
      · rintro ⟨mark, ⟨base, szBuf, opened, _⟩, _⟩
        rw [found] at opened
        cases opened
  | some base =>
      simp only [List.mem_filter, List.mem_map, List.mem_filterMap]
      constructor
      · rintro ⟨⟨mark, ⟨szBuf, member, marked⟩, rfl⟩, present⟩
        exact ⟨mark, ⟨base, szBuf, found, member, marked⟩, rfl, present⟩
      · rintro ⟨mark, ⟨other, szBuf, opened, member, marked⟩, rfl, present⟩
        obtain rfl := Option.some.inj (found.symm.trans opened)
        exact ⟨⟨mark, ⟨szBuf, member, marked⟩, rfl⟩, present⟩

theorem page_confined_iff (files : Files) (req : Request) :
    (∀ name ∈ pageOpens files req, Confined name) ↔
      ∀ mark, Marked files mark → (files (innerName (getstr req "cmd") mark)).isSome = true →
        Returns (route (relativeName (shown (getstr req "cmd")) mark)) := by
  constructor
  · intro confined mark marked present
    rw [← inner_confined_iff]
    exact confined _ ((opens_mem files req _).mpr ⟨mark, marked, rfl, present⟩)
  · intro back name member
    obtain ⟨mark, marked, rfl, present⟩ := (opens_mem files req name).mp member
    rw [inner_confined_iff]
    exact back mark marked present

def passwdFiles : Files := fun name =>
  if name = baseName then some pageBase
  else if resolve name = [ascii "etc", ascii "passwd"] then some (ascii "root:x:0:0:root:/root:/bin/sh\n")
  else none

def passwdRequest : Request := ⟨[(ascii "cmd", ascii "../../etc/passwd")]⟩

theorem passwd_page_opened :
    ¬ (∀ name ∈ pageOpens passwdFiles passwdRequest, Confined name) ∧
      ascii "/www/contents/../../etc/passwd" ∈ pageOpens passwdFiles passwdRequest ∧
      ¬ Confined (ascii "/www/contents/../../etc/passwd") ∧
      ftmcPage passwdFiles passwdRequest = some (ascii "<div>\nroot:x:0:0:root:/root:/bin/sh\n</div>\n") := by
  have opened : ascii "/www/contents/../../etc/passwd" ∈ pageOpens passwdFiles passwdRequest := by decide
  have resolved : resolve (ascii "/www/contents/../../etc/passwd") = [ascii "etc", ascii "passwd"] := by decide
  have escapes : ¬ Confined (ascii "/www/contents/../../etc/passwd") := by
    rw [Confined, resolved]
    decide
  exact ⟨fun confined => escapes (confined _ opened), opened, escapes, by decide⟩

end Ftm50s.Page
