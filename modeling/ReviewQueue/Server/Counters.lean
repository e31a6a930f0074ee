import ReviewQueue.Domain.Status
import ReviewQueue.Text.Numeral

/-! What the service counts, and the text in which it reports its counts. -/

namespace ReviewQueue.Server

/-- Counts by key. -/
abbrev Tally (κ : Type) := List (κ × Nat)

namespace Tally

/-- Counts one more of a key. -/
def bump [DecidableEq κ] (key : κ) : Tally κ → Tally κ
  | [] => [(key, 1)]
  | (k, n) :: rest => if k = key then (k, n + 1) :: rest else (k, n) :: bump key rest

/-- The sum over all keys. -/
def total (t : Tally κ) : Nat :=
  t.foldr (fun (_, n) sum => n + sum) 0

end Tally

/-- The counts of a service. -/
structure Counters where
  /-- Requests by status code and route. -/
  requests : Tally (Int × String) := []
  /-- Accepted verdicts by the status they led to. -/
  reviews : Tally Status := []
  /-- Updates that were refused because of problems with them. -/
  refusals : Nat := 0
  deriving DecidableEq, Repr, Inhabited

namespace Counters

/-- Counts a request. -/
def request (c : Counters) (route : String) (code : Int) : Counters :=
  { c with requests := c.requests.bump (code, route) }

/-- Counts an accepted verdict. -/
def accepted (c : Counters) (status : Status) : Counters :=
  { c with reviews := c.reviews.bump status }

/-- Counts a refused update. -/
def refused (c : Counters) : Counters :=
  { c with refusals := c.refusals + 1 }

/-! ## The report -/

/-- A label value in quotes. -/
def labelText (name value : String) : String :=
  name ++ "=\"" ++ String.ofList (value.toList.flatMap fun c =>
    match c with
    | '\\' => ['\\', '\\']
    | '"' => ['\\', '"']
    | '\n' => ['\\', 'n']
    | c => [c]) ++ "\""

/-- One line of the report. -/
def line (name : String) (labels : List (String × String)) (value : Nat) : String :=
  let labels :=
    if labels.isEmpty then ""
    else "\x7b" ++ ",".intercalate (labels.map fun (n, v) => labelText n v) ++ "\x7d"
  name ++ labels ++ " " ++ Text.ofNat value ++ "\n"

/-- The two lines that introduce a family of counts. -/
def heading (name kind help : String) : String :=
  "# HELP " ++ name ++ " " ++ help ++ "\n# TYPE " ++ name ++ " " ++ kind ++ "\n"

/-- A family of counts, which is absent when it has no series. -/
def family (name kind help : String) (lines : List String) : String :=
  if lines.isEmpty then "" else heading name kind help ++ String.join lines

/-- The requests of each route. -/
def routes (c : Counters) : Tally String :=
  c.requests.foldl (fun acc p =>
    (List.range p.2).foldl (fun acc _ => Tally.bump p.1.2 acc) acc) []

/-- The report, families in order of their names and series in order of their labels. Of the
latencies only the number of observations is shown. -/
def report (c : Counters) : String :=
  family "rq_http_request_duration_seconds" "histogram" "API request latency by route pattern."
      ((c.routes.mergeSort fun a b => decide (a.1 ≤ b.1)).map fun (route, n) =>
        line "rq_http_request_duration_seconds_count" [("route", route)] n) ++
    family "rq_http_requests_total" "counter" "API requests by route pattern and status code."
      ((c.requests.mergeSort fun a b =>
          a.1.1 < b.1.1 || (a.1.1 == b.1.1 && decide (a.1.2 ≤ b.1.2))).map
        fun ((code, route), n) =>
          line "rq_http_requests_total" [("code", Text.ofInt code), ("route", route)] n) ++
    family "rq_review_rejections_total" "counter" "Review updates refused by validation."
      [line "rq_review_rejections_total" [] c.refusals] ++
    family "rq_reviews_total" "counter" "Accepted review verdicts by resulting submission status."
      ((c.reviews.mergeSort fun a b => decide (a.1.label ≤ b.1.label)).map fun (st, n) =>
        line "rq_reviews_total" [("status", st.label)] n)

end Counters
end ReviewQueue.Server
