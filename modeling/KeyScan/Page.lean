import KeyScan.Bytes

namespace KeyScan

/-- A delivered entry. A side that the scan does not deliver is absent. -/
structure Entry where
  key : Option Bytes
  value : Option Bytes
  deriving DecidableEq, Repr

/-- A key or value in the form that the caller asked for. -/
inductive Datum where
  | buffer (bytes : Bytes)
  | text (text : String)
  deriving DecidableEq, Repr

namespace Datum

/-- Bytes as they are, or as text with malformed stretches replaced. -/
def ofBytes (asBuffer : Bool) (bytes : Bytes) : Datum :=
  if asBuffer then .buffer bytes else .text bytes.lossyText

def bytes : Datum → Bytes
  | buffer bytes => bytes
  | text chars => .ofString chars

end Datum

namespace Entry

/-- The bytes that an entry counts for: those of the sides present. -/
def size (entry : Entry) : Nat :=
  (entry.key.map List.length).getD 0 + (entry.value.map List.length).getD 0

def keyDatum (asBuffer : Bool) (entry : Entry) : Option Datum := entry.key.map (.ofBytes asBuffer)

def valueDatum (asBuffer : Bool) (entry : Entry) : Option Datum :=
  entry.value.map (.ofBytes asBuffer)

end Entry

/-- Entries in the order of travel. A page is done if nothing follows it; it may hold entries all the
same. -/
structure Page where
  entries : List Entry := []
  done : Bool := false
  deriving DecidableEq, Repr

namespace Page

/-- The bytes counted against the high water mark. -/
def size (page : Page) : Nat := page.entries.foldr (fun entry total => entry.size + total) 0

def keys (page : Page) : List Bytes := page.entries.filterMap Entry.key

/-- The entries from the last to the first, for consumers that take from the end. -/
def popOrder (page : Page) : List Entry := page.entries.reverse

end Page
end KeyScan
