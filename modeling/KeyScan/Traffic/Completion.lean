import KeyScan.Traffic.Run

namespace KeyScan

/-- A bound on the sections that a task has still to run. -/
def Stage.rank : Stage → Nat
  | .fetch _ => 7
  | .leave _ _ => 6
  | .deliver _ _ => 5
  | .release _ => 4
  | .withdraw _ => 3
  | .conclude _ => 2
  | .settle _ => 1

namespace Traffic

variable {σ ι : Type} [Engine σ ι]

/-- A bound on the acts that complete all calls in progress. -/
def rank (traffic : Traffic σ ι) : Nat :=
  traffic.tasks.foldr (fun task total => task.stage.rank + total) 0 +
    traffic.closings.foldr (fun closing total => 5 * closing.left.length + 1 + total) 0

/-- Runs the calls in progress to completion, first tasks first and closes when no task is left. -/
def complete : (fuel : Nat) → Traffic σ ι → List Event × Traffic σ ι
  | 0, traffic => ([], traffic)
  | fuel + 1, traffic =>
    if traffic.isQuiet then ([], traffic)
    else
      let (events, traffic) :=
        if traffic.tasks.isEmpty then traffic.pursue 0 else traffic.runTask 0
      let (more, traffic) := complete fuel traffic
      (events ++ more, traffic)

/-- Runs what is still to be done under a number, and nothing else. -/
def await (call : Nat) : (fuel : Nat) → Traffic σ ι → List Event × Traffic σ ι
  | 0, traffic => ([], traffic)
  | fuel + 1, traffic =>
    match traffic.tasks.findIdx? fun task => task.call = call with
    | none => ([], traffic)
    | some place =>
      let (events, traffic) := traffic.runTask place
      let (more, traffic) := await call fuel traffic
      (events ++ more, traffic)

/-- The first reply to a call among some events. -/
def reply? (call : Nat) : List Event → Option Reply
  | [] => none
  | .answered other reply :: rest => if other = call then some reply else reply? call rest
  | _ :: rest => reply? call rest

end Traffic

namespace Service

variable {σ ι : Type} [Engine σ ι]

/-- Makes a call on a service with no other call in progress and runs it to completion. -/
def perform (request : Request) (service : Service σ ι) : Reply × Service σ ι :=
  let (events, traffic) := Traffic.start request { service }
  let (more, traffic) := traffic.complete traffic.rank
  ((Traffic.reply? 0 (events ++ more)).getD (.failed .undelivered), traffic.service)

/-- The replies to calls made one after another. -/
def performAll : List Request → Service σ ι → List Reply × Service σ ι
  | [], service => ([], service)
  | request :: rest, service =>
    let (reply, service) := service.perform request
    let (replies, service) := performAll rest service
    (reply :: replies, service)

end Service
end KeyScan
