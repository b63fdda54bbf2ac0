import Ftm50s.Lib.Decimal
import Mathlib.Data.List.Nodup
import Mathlib.Data.List.Perm.Subperm

set_option autoImplicit false

namespace Ftm50s.Cgi

open Lib.Text Lib.Decimal

-- qdecoder's entry list: names with the stored object, in order of arrival.
-- Query values are C strings; an uploaded file may hold any bytes.
structure Request where
  entries : List (Bytes × Bytes)
deriving DecidableEq, Repr

def getData (req : Request) (name : Bytes) : Option Bytes :=
  (req.entries.find? fun entry => decide (entry.1 = name)).map Prod.snd

def getstr (req : Request) (name : String) : Option Bytes := (getData req (ascii name)).map cstr

-- getstrf with a format of one %d behind a fixed stem
def getstrf (req : Request) (stem : String) (i : Nat) : Option Bytes :=
  (getData req (ascii stem ++ decimal i)).map cstr

def getint (req : Request) (name : String) : Int := ((getstr req name).bind scanInt).getD 0

-- printf prints (null) for a %s argument that is NULL.
def shown (text : Option Bytes) : Bytes := text.getD (ascii "(null)")

def putHeader : Bytes := ascii "<?xml version='1.0' encoding='ISO-8859-1'?>\n"

def element (tag : Bytes) (body : Bytes) : Bytes :=
  ascii "<" ++ tag ++ ascii ">" ++ body ++ ascii "</" ++ tag ++ ascii ">\n"

def putError (cmd : String) (msg : Option String) : Bytes :=
  ascii "<" ++ ascii cmd ++ ascii ">\n" ++ element (ascii "RET") (ascii "ERROR") ++
    (match msg with
      | some text => element (ascii "MSG") (ascii text)
      | none => []) ++
    ascii "</" ++ ascii cmd ++ ascii ">\n"

def putOK (cmd : String) : Bytes :=
  ascii "<" ++ ascii cmd ++ ascii ">\n" ++ element (ascii "RET") (ascii "OK") ++ ascii "</" ++ ascii cmd ++ ascii ">\n"

theorem get_data_entry (req : Request) (name : Bytes) (found : getData req name ≠ none) :
    name ∈ req.entries.map Prod.fst := by
  obtain ⟨value, hit⟩ := Option.ne_none_iff_exists'.mp found
  obtain ⟨entry, entryHit, _⟩ := Option.map_eq_some_iff.mp hit
  have same : entry.1 = name := by simpa using List.find?_some entryHit
  exact List.mem_map.mpr ⟨entry, List.mem_of_find?_eq_some entryHit, same⟩

theorem numbered_absent (req : Request) (stem : String) (limit i : Nat) (beyond : limit ≤ i)
    (below : ∀ name ∈ req.entries.map Prod.fst, name.take (ascii stem).length = ascii stem →
      digitsValue (name.drop (ascii stem).length) < limit) : getstrf req stem i = none := by
  by_contra found
  have known : ascii stem ++ decimal i ∈ req.entries.map Prod.fst := by
    apply get_data_entry
    intro absent
    exact found (by rw [getstrf, absent, Option.map_none])
  have number := below _ known (by simp)
  rw [List.drop_left, decimal_value] at number
  omega

theorem numbered_bound (req : Request) (stem : String) (n : Nat) (present : ∀ i, i < n → getstrf req stem i ≠ none) :
    n ≤ req.entries.length := by
  let names := (List.range n).map fun i => ascii stem ++ decimal i
  have distinct : names.Nodup := by
    apply List.Nodup.map
    · intro a b same
      exact decimal_injective a b (List.append_cancel_left same)
    · exact List.nodup_range
  have known : names ⊆ req.entries.map Prod.fst := by
    intro name member
    obtain ⟨i, inRange, rfl⟩ := List.mem_map.mp member
    apply get_data_entry
    intro absent
    exact present i (List.mem_range.mp inRange) (by rw [getstrf, absent, Option.map_none])
  simpa [names] using (distinct.subperm known).length_le

theorem numbered_gap (req : Request) (stem : String) : ∃ k, k ≤ req.entries.length ∧ getstrf req stem k = none := by
  by_contra full
  have present : ∀ i, i < req.entries.length + 1 → getstrf req stem i ≠ none := fun i inside absent =>
    full ⟨i, by omega, absent⟩
  have bound := numbered_bound req stem (req.entries.length + 1) present
  omega

end Ftm50s.Cgi
