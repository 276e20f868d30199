import KeyScan.Bytes

namespace KeyScan

/-- Options of a scan as its caller states them. A bound may be given and be empty. -/
structure ScanOptions where
  start : Option Bytes := none
  stop : Option Bytes := none
  lt : Option Bytes := none
  lte : Option Bytes := none
  gt : Option Bytes := none
  gte : Option Bytes := none
  reverse : Bool := false
  keys : Bool := true
  values : Bool := true
  keyAsBuffer : Bool := true
  valueAsBuffer : Bool := true
  fillCache : Bool := false
  /-- most entries over the life of the scan; no bound if negative -/
  limit : Int := -1
  /-- a page is cut once its bytes exceed this -/
  highWaterMark : Nat := 16384
  deriving DecidableEq

/-- Options of a service: how many workers run pooled calls. -/
structure ServiceOptions where
  workers : Nat := 4
  deriving DecidableEq

/-- Options of an engine iterator: whether the blocks it reads should be cached. -/
structure EngineOptions where
  fillCache : Bool := true
  deriving DecidableEq

end KeyScan
