import Ftm50s.Dhcp.Config

set_option autoImplicit false

namespace Ftm50s.Dhcp

open Lib.Text Ftm50s.Cgi

-- What the set branch hands to popen. The first one overwrites /etc/udhcpd.conf;
-- start also puts the script back under /etc/init.d, stop also removes it.
inductive Command where
  | copy (conf : Bytes)
  | start
  | restart
  | stop
deriving DecidableEq, Repr

def setCommands (creatable : Bool) (req : Request) : List Command :=
  if !creatable then []
  else
    .copy (udhcpdConf req) ::
      match getstr req "enable" with
      | none => []
      | some lpszEnable => if lpszEnable = ascii "true" then [.start, .restart] else [.stop]

inductive Document where
  | error
  | systemError
  | ok
deriving DecidableEq, Repr

def documentBody : Document → Bytes
  | .error => element (ascii "RET") (ascii "ERROR") ++ element (ascii "MSG") (ascii "Invalid Parameter!")
  | .systemError =>
      element (ascii "RET") (ascii "SYSTEM_ERROR") ++
        element (ascii "MSG") (ascii "Can't create file\n[/tmp/udhcpd.conf]")
  | .ok => element (ascii "RET") (ascii "OK")

def documentText (document : Document) : Bytes :=
  putHeader ++ ascii "<DHCP_CONFIG>\n" ++ documentBody document ++ ascii "</DHCP_CONFIG>\n"

-- The documents in the order they are printed; nothing returns after the first.
def setDocuments (creatable : Bool) (req : Request) : List Document :=
  (if lacksParameter req then [.error] else []) ++
    if !creatable then [.systemError]
    else
      match getstr req "enable" with
      | none => []
      | some _ => [.ok]

def runCommand (conf : Bytes) : Command → Bytes
  | .copy fresh => fresh
  | _ => conf

theorem set_commands_conf (creatable : Bool) (conf : Bytes) (req : Request) :
    (dhcpSet creatable conf req).1 = (setCommands creatable req).foldl runCommand conf := by
  cases creatable with
  | false => rfl
  | true =>
      rw [dhcpSet, setCommands, if_neg (by decide), if_neg (by decide), List.foldl_cons, runCommand]
      cases getstr req "enable" with
      | none => rfl
      | some lpszEnable =>
          by_cases enabled : lpszEnable = ascii "true"
          · simp only [if_pos enabled, List.foldl_cons, List.foldl_nil, runCommand]
          · simp only [if_neg enabled, List.foldl_cons, List.foldl_nil, runCommand]

theorem set_documents_text (creatable : Bool) (conf : Bytes) (req : Request) :
    setText req (dhcpSet creatable conf req).2 = (setDocuments creatable req).flatMap documentText := by
  unfold setText setDocuments
  rw [List.flatMap_append]
  congr 1
  · cases lacksParameter req with
    | false => rfl
    | true => simp [documentText, documentBody]
  · cases creatable with
    | false => simp [dhcpSet, documentText, documentBody]
    | true =>
        rw [dhcpSet, if_neg (by decide)]
        cases getstr req "enable" with
        | none => rfl
        | some lpszEnable => simp [documentText, documentBody]

-- /etc/udhcpd.conf and the service are left alone, and the one answer is the error.
def LeavesAll (creatable : Bool) (req : Request) : Prop :=
  setCommands creatable req = [] ∧ setDocuments creatable req = [.error]

theorem created_not_left (req : Request) : ¬ LeavesAll true req := by
  rintro ⟨untouched, _⟩
  rw [setCommands, if_neg (by decide)] at untouched
  cases untouched

theorem not_created_twice (req : Request) (lacks : lacksParameter req = true) :
    setDocuments false req = [.error, .systemError] := by
  rw [setDocuments, if_pos lacks, if_pos (by decide), List.singleton_append]

theorem rejected_change_carried_out (creatable : Bool) (req : Request) (lacks : lacksParameter req = true) :
    ¬ LeavesAll creatable req := by
  cases creatable with
  | true => exact created_not_left req
  | false =>
      rintro ⟨_, single⟩
      rw [not_created_twice req lacks] at single
      cases single

def noDns2 : Request :=
  ⟨[(ascii "enable", ascii "true"), (ascii "if", ascii "eth0"), (ascii "static", ascii "false"),
    (ascii "start", ascii "10.0.0.2"), (ascii "end", ascii "10.0.0.9"), (ascii "time", ascii "600"),
    (ascii "dns1", ascii "10.0.0.1")]⟩

theorem no_dns2_carried_out : lacksParameter noDns2 = true ∧ ¬ LeavesAll true noDns2 :=
  ⟨by decide, rejected_change_carried_out true noDns2 (by decide)⟩

theorem no_dns2_restarts :
    lacksParameter noDns2 = true ∧ ¬ LeavesAll true noDns2 ∧
      setCommands true noDns2 = [.copy (udhcpdConf noDns2), .start, .restart] ∧
      setDocuments true noDns2 = [.error, .ok] := by
  refine ⟨by decide, created_not_left noDns2, ?_, by decide⟩
  rw [setCommands, if_neg (by decide), show getstr noDns2 "enable" = some (ascii "true") by decide]
  rfl

end Ftm50s.Dhcp
