import KeyScan.Engine.Positioning
import KeyScan.Page

/-! A reader delivers the entries of one window of an engine, one at a time or by the page. It takes a
snapshot when it is made, opens an engine iterator on the first read or seek, and gives both back
once.

```text
pending ──first read or seek──→ opened ──release──→ released
   └──────────────────release─────────────────────────↑
```
-/
namespace KeyScan

/-- The engine iterator of a reader. -/
inductive Handle (ι : Type) where
  | pending
  | opened (iterator : ι)
  | released
  deriving DecidableEq, Repr

/-- A positioned reader. -/
structure Reader (ι : Type) where
  window : Window
  fillCache : Bool
  /-- the snapshot that is held, until it is given back -/
  pin : Option Sequence
  handle : Handle ι := .pending
  /-- the keys counted against the limit -/
  count : UInt64 := 0
  /-- whether an explicit seek is the latest positioning, so that the next read must not step -/
  sought : Bool := false
  /-- whether a page has delivered an entry since the latest explicit seek -/
  landed : Bool := false
  /-- the target of the latest explicit seek, until the next advance is over -/
  target : Option Bytes := none

namespace Reader

variable {σ ι : Type} [Engine σ ι]

/-- A reader of the present contents of an engine. -/
def new (window : Window) (fillCache : Bool) (engine : σ) : Reader ι × σ :=
  let (sequence, engine) := Engine.acquire engine
  ({ window, fillCache, pin := some sequence }, engine)

def isMaterialized (reader : Reader ι) : Bool := reader.handle matches .opened _

def isReleased (reader : Reader ι) : Bool := reader.handle matches .released

/-- Opens an iterator and takes it to where travel starts. An iterator that cannot be taken there is
closed again. -/
def launch (reader : Reader ι) (engine : σ) : Except Failure ι × σ :=
  match reader.pin with
  | none => (.error .ended, engine)
  | some sequence =>
    match Engine.open reader.fillCache sequence engine with
    | (.error report, engine) => (.error (.engine report), engine)
    | (.ok iterator, engine) =>
      match reader.window.opening.follow iterator engine with
      | (.ok (), iterator, engine) => (.ok iterator, engine)
      | (.error report, iterator, engine) =>
        (.error (.engine report), Engine.close iterator engine)

/-- The iterator to read from, opened now if that has not happened yet, and whether it is fresh, that
is, opened by this call. -/
def materialize (reader : Reader ι) (engine : σ) :
    Except Failure (Bool × ι) × Reader ι × σ :=
  match reader.handle with
  | .opened iterator => (.ok (false, iterator), reader, engine)
  | .released => (.error .ended, reader, engine)
  | .pending =>
    match reader.launch engine with
    | (.error failure, engine) => (.error failure, reader, engine)
    | (.ok iterator, engine) =>
      (.ok (true, iterator), { reader with handle := .opened iterator }, engine)

def deliver (window : Window) (pair : Bytes × Bytes) : Entry where
  key := if window.keys then some pair.1 else none
  value := if window.values then some pair.2 else none

/-- Looks at where the iterator stands: the entry there if the window admits it. -/
def look (reader : Reader ι) (iterator : ι) (engine : σ) : Option Entry × Reader ι :=
  match Engine.entry? iterator engine with
  | none => (none, reader)
  | some pair =>
    let (admitted, count) := reader.window.test pair.1 reader.count
    (if admitted then some (deliver reader.window pair) else none, { reader with count })

/-- Delivers the next entry, or none once the window is exhausted. Every read steps before it looks,
except the first one and one right after a seek. -/
def read (reader : Reader ι) (engine : σ) : Except Failure (Option Entry) × Reader ι × σ :=
  match reader.materialize engine with
  | (.error failure, reader, engine) => (.error failure, reader, engine)
  | (.ok (fresh, iterator), reader, engine) =>
    if fresh || reader.sought then
      let (entry, reader) := { reader with sought := false }.look iterator engine
      (.ok entry, reader, engine)
    else
      match Engine.move reader.window.direction.step iterator engine with
      | (.error report, iterator, engine) =>
        (.error (.engine report), { reader with handle := .opened iterator }, engine)
      | (.ok _, iterator, engine) =>
        let (entry, reader) := { reader with handle := .opened iterator }.look iterator engine
        (.ok entry, reader, engine)

/-- Moves to the nearest key at or beyond a target in the direction of travel, and tells whether the
reader was parked beyond all entries instead. A seek whose own move fails leaves the reader as it
was, but for the target. -/
def seek (target : Bytes) (reader : Reader ι) (engine : σ) :
    Except Failure Bool × Reader ι × σ :=
  match { reader with target := none }.materialize engine with
  | (.error failure, reader, engine) => (.error failure, reader, engine)
  | (.ok (_, iterator), reader, engine) =>
    match Engine.move (.seek target) iterator engine with
    | (.error report, iterator, engine) =>
      (.error (.engine report), { reader with handle := .opened iterator }, engine)
    | (.ok _, iterator, engine) =>
      let landing := (Engine.entry? iterator engine).map Prod.fst
      let reader := { reader with sought := true, landed := false }
      match (reader.window.settle target landing).follow iterator engine with
      | (.error report, iterator, engine) =>
        (.error (.engine report), { reader with handle := .opened iterator }, engine)
      | (.ok parked, iterator, engine) =>
        (.ok parked, { reader with handle := .opened iterator, target := some target }, engine)

def status (reader : Reader ι) (engine : σ) : Except Report Unit :=
  match reader.handle with
  | .opened iterator => Engine.health iterator engine
  | .pending | .released => .ok ()

/-- Closes the iterator, then gives the snapshot back; tells whether it was still held. -/
def release (reader : Reader ι) (engine : σ) : Bool × Reader ι × σ :=
  let engine := match reader.handle with
    | .opened iterator => Engine.close iterator engine
    | .pending | .released => engine
  let released := { reader with handle := .released, target := none, pin := none }
  match reader.pin with
  | some sequence => (true, released, Engine.release sequence engine)
  | none => (false, released, engine)

/-- Why a window that delivers nothing more is not simply exhausted: the iterator has recorded an
error other than that there is nothing to find. -/
def brokenOff? (reader : Reader ι) (engine : σ) : Option Report :=
  match reader.status engine with
  | .error report => if report.code = .notFound then none else some report
  | .ok () => none

/-- Reads entries into a page until its size exceeds the mark or the window is exhausted. The page is
cut when the fuel runs out, which holds for one entry more than an engine has. -/
def gather (highWaterMark : Nat) :
    (fuel size : Nat) → List Entry → Reader ι → σ → Except Failure Page × Reader ι × σ
  | 0, _, entries, reader, engine => (.ok ⟨entries.reverse, false⟩, reader, engine)
  | fuel + 1, size, entries, reader, engine =>
    match reader.read engine with
    | (.error failure, reader, engine) => (.error failure, reader, engine)
    | (.ok none, reader, engine) =>
      match reader.brokenOff? engine with
      | some report => (.error (.engine report), reader, engine)
      | none => (.ok ⟨entries.reverse, true⟩, reader, engine)
    | (.ok (some entry), reader, engine) =>
      let reader := { reader with landed := true }
      let size := size + entry.size
      if highWaterMark < size then (.ok ⟨(entry :: entries).reverse, false⟩, reader, engine)
      else gather highWaterMark fuel size (entry :: entries) reader engine

/-- Reads the next page. It holds at least one entry unless the window is exhausted. -/
def page (highWaterMark : Nat) (reader : Reader ι) (engine : σ) :
    Except Failure Page × Reader ι × σ :=
  reader.gather highWaterMark (Engine.reach engine + 2) 0 [] engine

end Reader
end KeyScan
