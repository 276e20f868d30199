import KeyScan.Text.Places

namespace KeyScan

/-- On whose thread a call reads: its caller's, or that of a pooled worker. -/
inductive Mode where
  | waiting
  | pooled
  deriving DecidableEq, Repr

/-- What a service counts. -/
inductive Occurrence where
  | created
  /-- a scan ended; `deferred` if its end had to wait for an advance -/
  | ended (deferred : Bool)
  /-- an advance delivered a page of so many entries and bytes -/
  | advanced (mode : Mode) (entries bytes : UInt64)
  | refused
  /-- a seek succeeded; `parked` if it left nothing to read -/
  | sought (parked : Bool)
  | failed
  deriving DecidableEq, Repr

/-- The counts of a service. -/
structure Tally where
  created : UInt64 := 0
  ended : UInt64 := 0
  deferred : UInt64 := 0
  waited : UInt64 := 0
  pooled : UInt64 := 0
  refused : UInt64 := 0
  entries : UInt64 := 0
  bytes : UInt64 := 0
  sought : UInt64 := 0
  parked : UInt64 := 0
  failed : UInt64 := 0
  deriving DecidableEq, Repr

namespace Tally

def record (occurrence : Occurrence) (tally : Tally) : Tally :=
  match occurrence with
  | .created => { tally with created := tally.created + 1 }
  | .ended deferred =>
    { tally with
      ended := tally.ended + 1
      deferred := if deferred then tally.deferred + 1 else tally.deferred }
  | .advanced mode entries bytes =>
    { tally with
      waited := if mode = .waiting then tally.waited + 1 else tally.waited
      pooled := if mode = .pooled then tally.pooled + 1 else tally.pooled
      entries := tally.entries + entries
      bytes := tally.bytes + bytes }
  | .refused => { tally with refused := tally.refused + 1 }
  | .sought parked =>
    { tally with
      sought := tally.sought + 1
      parked := if parked then tally.parked + 1 else tally.parked }
  | .failed => { tally with failed := tally.failed + 1 }

def ofOccurrences (occurrences : List Occurrence) : Tally :=
  occurrences.foldl (fun tally occurrence => tally.record occurrence) {}

def advances (tally : Tally) : UInt64 := tally.waited + tally.pooled

/-- Scans created and not ended, or zero if more ends than creations are counted. -/
def live (tally : Tally) : UInt64 :=
  if tally.ended ≤ tally.created then tally.created - tally.ended else 0

/-- A share as a double, zero for a share of nothing. -/
def share (part whole : UInt64) : Float :=
  if whole = 0 then 0 else part.toFloat / whole.toFloat

def meanEntries (tally : Tally) : Float := share tally.entries tally.advances

/-- The share of seeks that left nothing to read. -/
def parkedRatio (tally : Tally) : Float := share tally.parked tally.sought

/-- The counts as a text of several lines. -/
def report (tally : Tally) : String :=
  let n (count : UInt64) : String := Nat.repr count.toNat
  let megabytes := tally.bytes.toFloat / 1024 / 1024
  "\n".intercalate
    ["Iterator Statistics:",
      "",
      "Lifecycle:",
      "- Created:       " ++ n tally.created,
      "- Ended:         " ++ n tally.ended,
      "- Deferred ends: " ++ n tally.deferred,
      "- Live:          " ++ n tally.live,
      "",
      "Advances:",
      "- Sync:          " ++ n tally.waited,
      "- Async:         " ++ n tally.pooled,
      "- Busy:          " ++ n tally.refused,
      "- Entries read:  " ++ n tally.entries,
      "- Bytes read:    " ++ n tally.bytes ++ " (" ++ Text.fixed 2 megabytes ++ " MB)",
      "- Avg entries:   " ++ Text.fixed 2 tally.meanEntries,
      "",
      "Seeks:",
      "- Total:         " ++ n tally.sought,
      "- Out of range:  " ++ n tally.parked ++
        " (" ++ Text.fixed 1 (tally.parkedRatio * 100) ++ "%)",
      "",
      "Errors:          " ++ n tally.failed]

end Tally
end KeyScan
