import Ftm50s.Lib.Decimal
import Mathlib.Algebra.Order.Group.Int

set_option autoImplicit false

namespace Ftm50s.Syslog

open Lib.Text Lib.Decimal

-- An anchor of the div nav
structure Anchor where
  innerHTML : Bytes
  style : Bytes
  onclick : Option Bytes
deriving DecidableEq, Repr

def getLog (page : Int) : Bytes := ascii "onGetLog(" ++ decimalInt page ++ ascii ");"

def arrow (text : String) (page : Int) : Anchor := ⟨ascii text, ascii "cursor:pointer", some (getLog page)⟩

def pageAnchor (selected page : Int) : Anchor :=
  let text := ascii "  " ++ decimalInt page ++ ascii "  "
  if page ≠ selected then ⟨text, ascii "cursor:pointer", some (getLog page)⟩
  else ⟨text, ascii "font-weight:bold", none⟩

-- start_page and last_page, before the two clamps and after them
def openWindow (pages selected : Int) : Int × Int :=
  if selected - 4 < 1 then (1, 1 + 9)
  else if selected + 5 > pages then (pages - 9, pages)
  else (selected - 4, selected + 5)

def pageWindow (pages selected : Int) : Int × Int :=
  let (start_page, last_page) := openWindow pages selected
  (if start_page < 1 then 1 else start_page, if last_page > pages then pages else last_page)

-- The loop with what is left of i < 10
def pageLoop (start_page pages selected : Int) : Nat → Nat → List Anchor
  | 0, _ => []
  | turns + 1, i =>
      if start_page + i ≤ pages then
        pageAnchor selected (start_page + i) :: pageLoop start_page pages selected turns (i + 1)
      else []

def clampSelected (pages selected : Int) : Int := if selected > pages then pages else selected

def onCreateNavi (pages selected : Int) : List Anchor :=
  let selected := clampSelected pages selected
  arrow "  <<  " 1 :: pageLoop (pageWindow pages selected).1 pages selected 10 0 ++ [arrow "  >>  " pages]

theorem clamp_selected (pages selected : Int) : clampSelected pages selected = min selected pages := by
  unfold clampSelected
  split <;> omega

theorem page_window (pages selected : Int) (some_page : 1 ≤ pages) (inside : 1 ≤ selected ∧ selected ≤ pages) :
    1 ≤ (pageWindow pages selected).1 ∧ (pageWindow pages selected).2 ≤ pages ∧
      (pageWindow pages selected).2 = (pageWindow pages selected).1 + min 10 pages - 1 ∧
      (pageWindow pages selected).1 ≤ selected ∧ selected ≤ (pageWindow pages selected).2 := by
  simp only [pageWindow, openWindow]
  split
  · dsimp only
    split <;> omega
  · split
    · dsimp only
      split <;> omega
    · omega

theorem page_loop_range (start_page pages selected : Int) (turns i count : Nat) (within : count ≤ turns)
    (more : count ≠ 0 → start_page + i + count - 1 ≤ pages) (ends : count < turns → pages < start_page + i + count) :
    pageLoop start_page pages selected turns i =
      (List.range count).map fun k => pageAnchor selected (start_page + (i + k : Nat)) := by
  induction turns generalizing i count with
  | zero =>
      obtain rfl : count = 0 := by omega
      rfl
  | succ turns ih =>
      cases count with
      | zero =>
          have beyond := ends (by omega)
          rw [pageLoop, if_neg (by omega)]
          rfl
      | succ count =>
          have here := more (by omega)
          rw [pageLoop, if_pos (by omega), ih (i + 1) count (by omega) (by omega) (by omega), List.range_succ_eq_map,
            List.map_cons, List.map_map]
          have shift : ∀ k, i + 1 + k = i + (k + 1) := fun k => by omega
          simp only [Function.comp_def, Nat.add_zero, shift, Nat.succ_eq_add_one]

theorem page_anchor_plain (selected page : Int) : (pageAnchor selected page).onclick = none ↔ page = selected := by
  rw [pageAnchor]
  split
  · rename_i other
    simp [other]
  · rename_i same
    simpa using same

theorem navigation_window (pages selected : Int) (some_page : 1 ≤ pages) (positive : 1 ≤ selected) :
    ∃ start : Int,
      onCreateNavi pages selected = arrow "  <<  " 1 ::
        ((List.range (min 10 pages).toNat).map fun k : Nat => pageAnchor (min selected pages) (start + k)) ++
        [arrow "  >>  " pages] ∧
      1 ≤ start ∧ start + min 10 pages - 1 ≤ pages ∧
      (∃ k : Nat, k < (min 10 pages).toNat ∧ start + k = min selected pages) ∧
      ∀ k : Nat, (pageAnchor (min selected pages) (start + k)).onclick = none ↔ start + k = min selected pages := by
  have inside : 1 ≤ min selected pages ∧ min selected pages ≤ pages := by omega
  obtain ⟨low, high, width, before, after⟩ := page_window pages (min selected pages) some_page inside
  have anchors := page_loop_range (pageWindow pages (min selected pages)).1 pages (min selected pages) 10 0
    (min 10 pages).toNat
    (by omega) (by omega) (by omega)
  refine ⟨(pageWindow pages (min selected pages)).1, ?_, low, by omega, ?_, fun k => page_anchor_plain _ _⟩
  · rw [onCreateNavi, clamp_selected, anchors]
    simp only [Nat.zero_add]
  · exact ⟨(min selected pages - (pageWindow pages (min selected pages)).1).toNat, by omega, by omega⟩

-- Twelve pages with the seventh in view
theorem navigation_window_twelve :
    ∃ start : Int,
      onCreateNavi 12 7 = arrow "  <<  " 1 ::
        ((List.range 10).map fun k : Nat => pageAnchor 7 (start + k)) ++ [arrow "  >>  " 12] ∧
      1 ≤ start ∧ start + 10 - 1 ≤ 12 := by
  obtain ⟨start, anchors, low, high, _⟩ := navigation_window 12 7 (by decide) (by decide)
  exact ⟨start, anchors, low, high⟩

end Ftm50s.Syslog
