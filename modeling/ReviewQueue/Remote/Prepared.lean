import ReviewQueue.Remote.Client

/-! A far side with prepared replies.

Replies are prepared by method and target and are given in order, of which the last repeats. A
request that nothing was prepared for goes to the peer behind, if there is one. Every request is
noted. -/

namespace ReviewQueue.Http

/-- The next of the answers under a key, of which the last repeats. -/
def takeAnswer (key : String) (table : List (String × List α)) :
    Option α × List (String × List α) :=
  match table.lookup key with
  | some (x :: y :: rest) =>
    (some x, table.map fun e => if e.1 == key then (key, y :: rest) else e)
  | some [x] => (some x, table)
  | _ => (none, table)

/-- Prepared replies, and the peer behind them. -/
structure Prepared (ω : Type) where
  replies : List (String × List Reply) := []
  behind : Option ω := none
  /-- The requests so far, latest first. -/
  log : List String := []
  time : Timestamp := .zero

namespace Prepared

/-- A request as it is noted. -/
def entry (r : Request) : String :=
  r.method ++ " " ++ r.target ++ (if r.body = "" then "" else " " ++ r.body)

/-- Answers a request. -/
def answer [Peer ω] (p : Prepared ω) (sent : Outgoing) : Prepared ω × Reply :=
  let p := { p with log := entry sent.request :: p.log }
  match takeAnswer (sent.method ++ " " ++ sent.request.target) p.replies with
  | (some reply, replies) => ({ p with replies }, reply)
  | (none, _) =>
    match p.behind with
    | none => (p, .lost "unscripted request")
    | some peer =>
      let (peer, reply) := Peer.answer peer sent
      ({ p with behind := some peer }, reply)

end Prepared

instance [Peer ω] : Peer (Prepared ω) where
  answer := Prepared.answer
  now p := p.behind.elim p.time Peer.now

end ReviewQueue.Http
