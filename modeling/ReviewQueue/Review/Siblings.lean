import ReviewQueue.Query.Desk

/-! The list in which a submission has its neighbours.

A list that is in the cache is taken when it has entries, and nothing is fetched then. Otherwise the
list is fetched once; what cannot be fetched or read is an empty list. -/

namespace ReviewQueue.Siblings

/-- Reads the entries of a list text. Data that is missing or malformed has none. -/
def ofData? (data : Option String) : Option (List (Option Summary)) := do
  let text ← data
  let list ← Json.decode? {} SummaryList.fill text.toList
  list.results

/-- The list that is in the cache under a key, if it has entries. -/
def cached? (cache : Cache) (key : String) : Option (List (Option Summary)) :=
  if key = "" then none
  else
    match ofData? (cache.cached key).data with
    | some (item :: items) => some (item :: items)
    | _ => none

/-- The list of siblings, and the failure of its fetch. Without a path to fetch from, a list that is
not in the cache is empty. -/
def resolve [Remote ω] (d : Desk ω) (key path : String) :
    Desk ω × List (Option Summary) × Option RequestError :=
  match cached? d.cache key with
  | some items => (d, items, none)
  | none =>
    if path = "" then (d, [], none)
    else
      let (d, view) := d.get path
      match view.error with
      | some e => (d, [], some (.during "fetch sibling list" e))
      | none => (d, (ofData? view.data).getD [], none)

end ReviewQueue.Siblings
