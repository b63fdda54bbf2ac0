import Ftm50s.Lib.Text

set_option autoImplicit false

namespace Lib.Path

open Lib.Text

def components (path : Bytes) : List Bytes := path.splitOn 47

def isStill (component : Bytes) : Bool := component.isEmpty || component == ascii "."

-- One component of an absolute path; the root is its own parent.
def enter (resolved : List Bytes) (component : Bytes) : List Bytes :=
  if isStill component then resolved
  else if component = ascii ".." then resolved.dropLast
  else resolved ++ [component]

def resolve (path : Bytes) : List Bytes := (components path).foldl enter []

-- A relative path comes down to so many steps up and the names that follow them.
structure Route where
  ups : Nat
  names : List Bytes
deriving DecidableEq, Repr

def walk (route : Route) (component : Bytes) : Route :=
  if isStill component then route
  else if component = ascii ".." then
    if route.names = [] then { route with ups := route.ups + 1 } else { route with names := route.names.dropLast }
  else { route with names := route.names ++ [component] }

def route (relative : Bytes) : Route := (components relative).foldl walk ⟨0, []⟩

def follow (directory : List Bytes) (route : Route) : List Bytes :=
  directory.take (directory.length - route.ups) ++ route.names

theorem components_append (front back : Bytes) : components (front ++ 47 :: back) = components front ++
    components back := by
  rw [components, components, components, List.splitOn_eq_splitOnP, List.splitOn_eq_splitOnP, List.splitOn_eq_splitOnP,
    List.splitOnP_append_cons front back (by rfl)]

theorem follow_walk (directory : List Bytes) (route : Route) (component : Bytes) :
    enter (follow directory route) component = follow directory (walk route component) := by
  rw [enter, walk]
  by_cases still : isStill component = true
  · rw [if_pos still, if_pos still]
  · rw [if_neg still, if_neg still]
    by_cases parent : component = ascii ".."
    · rw [if_pos parent, if_pos parent]
      by_cases empty : route.names = []
      · rw [if_pos empty, follow, follow, empty, List.append_nil, List.append_nil, List.dropLast_eq_take,
          List.length_take,
          List.take_take]
        congr 1
        simp only
        omega
      · rw [if_neg empty, follow, follow, List.dropLast_append_of_ne_nil empty]
    · rw [if_neg parent, if_neg parent, follow, follow, List.append_assoc]

theorem enter_route (directory : List Bytes) (parts : List Bytes) (route : Route) :
    parts.foldl enter (follow directory route) = follow directory (parts.foldl walk route) := by
  induction parts generalizing route with
  | nil => rfl
  | cons component rest ih => rw [List.foldl_cons, List.foldl_cons, follow_walk, ih]

theorem resolve_route (directory relative : Bytes) :
    resolve (directory ++ 47 :: relative) = follow (resolve directory) (route relative) := by
  have start : resolve directory = follow (resolve directory) ⟨0, []⟩ := by
    rw [follow, Nat.sub_zero, List.take_length, List.append_nil]
  rw [resolve, components_append, List.foldl_append]
  change (components relative).foldl enter (resolve directory) = _
  conv_lhs => rw [start, enter_route]
  rfl

end Lib.Path
