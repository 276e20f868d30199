import KeyScan.Engine.Memory
import KeyScan.Options.Written
import KeyScan.Traffic.Caller

namespace KeyScan.Demonstration

/-- The service that the demonstration runs on. -/
abbrev Stage := Service MemoryEngine TableWalker

def entries : List (String × String) :=
  [("user:alice", "30"), ("user:bob", "25"), ("user:carol", "41"), ("user:dave", "35"),
    ("zzz:other", "-")]

def engine : MemoryEngine :=
  entries.foldl
    (fun engine entry => engine.put (.ofString entry.1) (.ofString entry.2)) .empty

def entryLines (page : Page) : List String :=
  page.entries.filterMap fun entry => do
    let key ← entry.key
    let value ← entry.value
    some (key.display ++ " = " ++ value.display)

def listedKeys (page : Page) : String :=
  "[" ++ ", ".intercalate (page.keys.map Bytes.debug) ++ "]"

def writtenOptions : String :=
  "\x7b\"gte\": \"user:\", \"lt\": \"user;\", \"reverse\": true\x7d"

def lines : Except Failure (List String) := do
  let service ← (Service.start {} engine : Except Failure Stage)
  let (id, service) ← service.openScan (← ScanOptions.read writtenOptions)
  let service :=
    { service with engine := service.engine.delete (.ofString "user:bob") }
  let (pages, service) ←
    readPages (·.nextPage .waiting id) (.error .undelivered) service.enoughPages service
  let service ← service.endScan id
  let (id, service) ← service.openScan
    { gte := some (.ofString "user:"), lt := some (.ofString "user;") }
  let service ← service.seekTo (.ofString "user:c") id
  let (page, service) ← service.nextPage .pooled id
  let service := (service.perform .close).2
  .ok (["rucksiter Simple Example"] ++ pages.flatMap entryLines ++
    ["From user:c -> " ++ listedKeys page] ++ service.tally.report.splitOn "\n")

end KeyScan.Demonstration
