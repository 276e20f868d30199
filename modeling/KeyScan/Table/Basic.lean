import KeyScan.Table.Version

namespace KeyScan

/-- Puts a version into its place in an ordered list, over an equal one. -/
def Version.place (version : Version) : List Version → List Version
  | [] => [version]
  | head :: rest =>
    if version.stamp < head.stamp then version :: head :: rest
    else if version.stamp = head.stamp then version :: rest
    else head :: version.place rest

private theorem Version.mem_place {version other : Version} {versions : List Version}
    (member : other ∈ version.place versions) : other = version ∨ other ∈ versions := by
  induction versions with
  | nil => exact .inl (by simpa [place] using member)
  | cons head rest ih =>
    simp only [place] at member
    split at member
    · simpa using member
    · split at member
      · rcases List.mem_cons.mp member with same | member
        · exact .inl same
        · exact .inr (List.mem_cons_of_mem head member)
      · rcases List.mem_cons.mp member with same | member
        · exact .inr (same ▸ List.mem_cons_self)
        · exact (ih member).imp_right (List.mem_cons_of_mem head)

private theorem Version.pairwise_place (version : Version) {versions : List Version}
    (ordered : versions.Pairwise fun a b => a.stamp < b.stamp) :
    (version.place versions).Pairwise fun a b => a.stamp < b.stamp := by
  induction versions with
  | nil => simp [place]
  | cons head rest ih =>
    have ⟨least, tail⟩ := List.pairwise_cons.mp ordered
    simp only [place]
    split
    · rename_i less
      refine List.pairwise_cons.mpr ⟨fun other member => ?_, ordered⟩
      rcases List.mem_cons.mp member with same | member
      · exact same ▸ less
      · exact VersionKey.lt_trans less (least other member)
    · rename_i notLess
      split
      · rename_i same
        exact List.pairwise_cons.mpr ⟨fun other member => same ▸ least other member, tail⟩
      · rename_i different
        refine List.pairwise_cons.mpr ⟨fun other member => ?_, ih tail⟩
        rcases mem_place member with same | member
        · exact same ▸ VersionKey.lt_of_not_lt different notLess
        · exact least other member

/-- Versions in ascending order, with a running estimate of the bytes written. -/
structure VersionTable where
  versions : List Version
  memory : Nat
  ordered : versions.Pairwise fun a b => a.stamp < b.stamp

/-- Where a range of versions begins or ends. -/
inductive Bound where
  | unbounded
  | included (stamp : VersionKey)
  | excluded (stamp : VersionKey)

namespace Bound

/-- Whether a version lies before a range that begins here. -/
def isAfter (bound : Bound) (version : Version) : Bool :=
  match bound with
  | .unbounded => false
  | .included stamp => decide (version.stamp < stamp)
  | .excluded stamp => !decide (stamp < version.stamp)

/-- Whether a version lies in a range that ends here. -/
def covers (bound : Bound) (version : Version) : Bool :=
  match bound with
  | .unbounded => true
  | .included stamp => !decide (stamp < version.stamp)
  | .excluded stamp => decide (version.stamp < stamp)

end Bound

namespace VersionTable

def empty : VersionTable := ⟨[], 0, .nil⟩

/-- Writes a version and counts its bytes: the key, the value if there is one, and the sequence
number. -/
def write (table : VersionTable) (version : Version) : VersionTable where
  versions := version.place table.versions
  memory := table.memory + version.stamp.key.length + (version.value.map List.length).getD 0 + 8
  ordered := version.pairwise_place table.ordered

def add (table : VersionTable) (sequence : Sequence) (key value : Bytes) : VersionTable :=
  table.write ⟨⟨key, sequence⟩, some value⟩

def delete (table : VersionTable) (sequence : Sequence) (key : Bytes) : VersionTable :=
  table.write ⟨⟨key, sequence⟩, none⟩

/-- How many versions the table holds, deletions included. -/
def size (table : VersionTable) : Nat := table.versions.length

def versionsFrom (table : VersionTable) (bound : Bound) : List Version :=
  table.versions.dropWhile bound.isAfter

/-- The versions up to a bound, in descending order. -/
def versionsTo (table : VersionTable) (bound : Bound) : List Version :=
  (table.versions.takeWhile bound.covers).reverse

/-- The newest version of a key at or below a sequence number. -/
def visible? (table : VersionTable) (key : Bytes) (sequence : Sequence) : Option Version :=
  (table.versionsFrom (.included ⟨key, sequence⟩)).head?.filter
    (Bound.included (.lastOf key)).covers

/-- Whether a key has a version at a sequence number, and the value unless that version deletes
it. -/
def get (table : VersionTable) (key : Bytes) (sequence : Sequence) : Bool × Option Bytes :=
  match table.visible? key sequence with
  | some version => (true, version.value)
  | none => (false, none)

/-- The key-value pairs that a reader at a sequence number sees, in ascending order of keys. -/
def live (table : VersionTable) (sequence : Sequence) : List (Bytes × Bytes) :=
  table.versions.filterMap fun version =>
    if table.visible? version.stamp.key sequence = some version then
      version.value.map fun value => (version.stamp.key, value)
    else none

end VersionTable
end KeyScan
