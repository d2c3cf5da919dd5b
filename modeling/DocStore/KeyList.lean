/-!
# Association lists in key order

Finite maps as lists of pairs with strictly increasing keys, so that equal maps are equal lists and
the list is the order in which the map is shown.

* `KeyList.insert` puts a value under a key, replacing what was there;
* `KeyList.ofList` keeps the last value of each key.
-/

namespace DocStore.KeyList

variable {κ α : Type} [Ord κ]

/-- The map with `v` under `k`. -/
def insert (k : κ) (v : α) : List (κ × α) → List (κ × α)
  | [] => [(k, v)]
  | entry :: rest =>
    match compare k entry.1 with
    | .lt => (k, v) :: entry :: rest
    | .eq => (k, v) :: rest
    | .gt => entry :: insert k v rest

def find? [BEq κ] (k : κ) (entries : List (κ × α)) : Option α := entries.lookup k

/-- The map of some pairs; the last pair of a key wins. -/
def ofList (pairs : List (κ × α)) : List (κ × α) :=
  pairs.foldl (fun entries p => insert p.1 p.2 entries) []

end DocStore.KeyList
