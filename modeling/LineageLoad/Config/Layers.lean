import LineageLoad.Json.Basic

/-!
Layers of settings: a later source overrides an earlier one name by name. Objects of layers list
their fields in ascending order of the names, each name once.
-/

namespace LineageLoad
namespace Json

/-- Puts an item under a name into fields in ascending order, in place of what stands there. -/
def putField (name : String) (item : Json) : List (String × Json) → List (String × Json)
  | [] => [(name, item)]
  | (other, found) :: rest =>
    match compare name other with
    | .lt => (name, item) :: (other, found) :: rest
    | .eq => (name, item) :: rest
    | .gt => (other, found) :: putField name item rest

mutual

/-- The value with all fields in ascending order; of two with the same name the last one counts. -/
def sorted : Json → Json
  | array items => array (sortedItems items)
  | object fields => object (sortedFields fields)
  | json => json

def sortedItems : List Json → List Json
  | [] => []
  | item :: rest => sorted item :: sortedItems rest

def sortedFields : List (String × Json) → List (String × Json)
  | [] => []
  | (name, item) :: rest =>
    let rest := sortedFields rest
    if (rest.lookup name).isSome then rest else putField name (sorted item) rest

end

mutual

/-- A value over another one: objects are joined, and anything else replaces what lies under it. -/
def overlay : (upper lower : Json) → Json
  | object upper, object lower => object (overlayFields upper lower)
  | upper, _ => upper

/-- Fields over other ones: names of both have the one value over the other. -/
def overlayFields : (upper lower : List (String × Json)) → List (String × Json)
  | [], lower => lower
  | (name, item) :: rest, lower =>
    let item := match lower.lookup name with
      | some found => overlay item found
      | none => item
    overlayFields rest (putField name item lower)

end

end Json
end LineageLoad
