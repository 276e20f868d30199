import KeyScan.Admission.Basic

namespace KeyScan

/-- What became of a waiter. -/
inductive Fate where
  | waiting
  | dropped
  | told
  deriving DecidableEq, Repr

inductive AdmissionCall where
  | begin
  | checkSeek
  | finish
  | requestEnd (withWaiter : Bool)
  | joinEnd
  | conclude
  deriving DecidableEq, Repr

inductive AdmissionReply where
  | admitted
  | refused (failure : Failure)
  | flag (value : Bool)
  | verdict (verdict : Verdict)
  | done
  deriving DecidableEq

/-- An admission and the fates of the waiters made so far, numbered in order. -/
structure Handshake where
  admission : Admission := {}
  fates : List Fate := []
  deriving DecidableEq

namespace Handshake

def next (handshake : Handshake) : Nat := handshake.fates.length

def tell (numbers : List Nat) (fates : List Fate) : List Fate :=
  fates.mapIdx fun number fate => if number ∈ numbers then .told else fate

/-- Answers a call. A waiter that is not kept is dropped at once. -/
def step (call : AdmissionCall) (handshake : Handshake) : AdmissionReply × Handshake :=
  match call with
  | .begin =>
    match handshake.admission.begin with
    | .ok admission => (.admitted, { handshake with admission })
    | .error failure => (.refused failure, handshake)
  | .checkSeek =>
    match handshake.admission.checkSeek with
    | .ok () => (.admitted, handshake)
    | .error failure => (.refused failure, handshake)
  | .finish =>
    let (pending, admission) := handshake.admission.finish
    (.flag pending, { handshake with admission })
  | .requestEnd withWaiter =>
    let waiter := if withWaiter then some handshake.next else none
    let (verdict, admission) := handshake.admission.requestEnd waiter
    let fate := if verdict = .alreadyEnded then Fate.dropped else .waiting
    (.verdict verdict, ⟨admission, handshake.fates ++ waiter.toList.map fun _ => fate⟩)
  | .joinEnd =>
    let (joined, admission) := handshake.admission.joinEnd handshake.next
    (.flag joined, ⟨admission, handshake.fates ++ [if joined then .waiting else .dropped]⟩)
  | .conclude =>
    let (told, admission) := handshake.admission.conclude
    (.done, ⟨admission, tell told handshake.fates⟩)

def run (calls : List AdmissionCall) : Handshake :=
  calls.foldl (fun handshake call => (handshake.step call).2) {}

end Handshake
end KeyScan
