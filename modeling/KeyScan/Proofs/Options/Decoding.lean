import Mathlib.Data.List.Perm.Basic
import KeyScan.Proofs.Json.Forms
import KeyScan.Proofs.Json.Reading
import KeyScan.Proofs.Json.Writing

namespace KeyScan

namespace Json

def ofMembers (members : List (String × Json)) : Json :=
  .object (members.map fun member => (Text.units member.1, member.2))

/-- What the members of an object say about a field: what its member writes, or its default if it has
none. -/
inductive Gives {α : Type} (members : List (String × Json)) (name : String) (writes : α → Json → Prop)
    (default : α) : α → Prop where
  | written {given : α} {value : Json} (member : (name, value) ∈ members) (written : writes given value) :
    Gives members name writes default given
  | absent (absent : name ∉ members.map Prod.fst) : Gives members name writes default default

private theorem lookup_eq_some_iff {members : List (String × Json)} {name : String} {value : Json}
    (once : (members.map Prod.fst).count name ≤ 1) :
    members.lookup name = some value ↔ (name, value) ∈ members := by
  induction members with
  | nil => simp
  | cons member rest ih =>
    obtain ⟨other, known⟩ := member
    rw [List.map_cons, List.count_cons] at once
    by_cases same : other = name
    · subst same
      have later : other ∉ rest.map Prod.fst := by
        intro again
        have counted := List.one_le_count_iff.mpr again
        simp at once
        omega
      have elsewhere : (other, value) ∉ rest := fun again => later (List.mem_map_of_mem again)
      simp [elsewhere, eq_comm]
    · have different : ¬ name = other := fun same' => same same'.symm
      rw [List.lookup_cons, beq_false_of_ne different, ih (by omega), List.mem_cons, Prod.mk.injEq]
      simp [different]

/-- A field of an object is read as what its members say about it. -/
theorem field_eq_some_iff {α : Type} {members : List (String × Json)} {name : String}
    {read : Json → Option α} {writes : α → Json → Prop} {default given : α}
    (reads : ∀ given value, read value = some given ↔ writes given value)
    (once : (members.map Prod.fst).count name ≤ 1) :
    field members name read default = some given ↔ Gives members name writes default given := by
  unfold field
  split
  · rename_i missing
    have absent : name ∉ members.map Prod.fst := by
      intro named
      obtain ⟨⟨other, value⟩, member, rfl⟩ := List.mem_map.mp named
      rw [(lookup_eq_some_iff once).mpr member] at missing
      cases missing
    constructor
    · intro same
      obtain rfl : default = given := Option.some.inj same
      exact .absent absent
    · intro gives
      cases gives with
      | written member _ => exact absurd (List.mem_map_of_mem member) absent
      | absent => rfl
  · rename_i value found
    have member := (lookup_eq_some_iff once).mp found
    constructor
    · intro known
      exact .written member ((reads given value).mp known)
    · intro gives
      cases gives with
      | written member' written =>
        have same := (lookup_eq_some_iff once).mpr member'
        rw [found] at same
        rw [Option.some.inj same]
        exact (reads _ _).mpr written
      | absent absent => exact absurd (List.mem_map_of_mem member) absent

private theorem Gives.of_member {α : Type} {members : List (String × Json)} {name : String}
    {writes : α → Json → Prop} {default given : α} {value : Json}
    (gives : Gives members name writes default given) (once : (members.map Prod.fst).count name ≤ 1)
    (member : (name, value) ∈ members) : writes given value := by
  cases gives with
  | written member' written =>
    have same := (lookup_eq_some_iff once).mpr member'
    rw [(lookup_eq_some_iff once).mpr member] at same
    rwa [Option.some.inj same]
  | absent absent => exact absurd (List.mem_map_of_mem member) absent

private theorem exists_gives {α : Type} {members : List (String × Json)} {name : String}
    {writes : α → Json → Prop} (default : α)
    (proper : ∀ value, (name, value) ∈ members → ∃ given, writes given value) :
    ∃ given, Gives members name writes default given := by
  by_cases named : name ∈ members.map Prod.fst
  · obtain ⟨⟨_, value⟩, member, rfl⟩ := List.mem_map.mp named
    obtain ⟨given, written⟩ := proper value member
    exact ⟨given, .written member written⟩
  · exact ⟨default, .absent named⟩

theorem members?_ofMembers (fields : List String) (members : List (String × Json)) :
    (ofMembers members).members? fields =
      if ((members.map Prod.fst).filter fun name => fields.contains name).Nodup then some members
      else none := by
  have named : (members.map fun member => (Text.units member.1, member.2)).mapM
      (fun member => (Text.ofUnits? member.1).map fun name => (name, member.2)) = some members := by
    induction members with
    | nil => rfl
    | cons member rest ih =>
      have isText : Text.ofUnits? (Text.units member.1) = some member.1 :=
        Text.ofUnits?_eq_some_iff.mpr rfl
      rw [List.map_cons, List.mapM_cons, ih, isText]
      rfl
  rw [ofMembers, members?, named]
  rfl

end Json

namespace ScanOptions
open Json

def boundNames : List String := ["start", "end", "lt", "lte", "gt", "gte"]

def flagNames : List String :=
  ["reverse", "keys", "values", "keyAsBuffer", "valueAsBuffer", "fillCache"]

def NamedOnce (members : List (String × Json)) : Prop :=
  ((members.map Prod.fst).filter fun name => fieldNames.contains name).Nodup

/-- A value has the form that the field of this name needs, if there is such a field. -/
structure HasForm (name : String) (value : Json) : Prop where
  bound : name ∈ boundNames → ∃ bound, WritesBound bound value
  flag : name ∈ flagNames → ∃ flag, WritesFlag flag value
  limit : name = "limit" → ∃ n, WritesSigned n value
  highWaterMark : name = "highWaterMark" → ∃ n, WritesCount n value

/-- Members that describe options: no field is named twice and each value has the form of its field. -/
structure Proper (members : List (String × Json)) : Prop where
  once : NamedOnce members
  forms : ∀ member ∈ members, HasForm member.1 member.2

/-- The options that members describe. -/
structure Describes (members : List (String × Json)) (options : ScanOptions) : Prop where
  start : Gives members "start" WritesBound none options.start
  stop : Gives members "end" WritesBound none options.stop
  lt : Gives members "lt" WritesBound none options.lt
  lte : Gives members "lte" WritesBound none options.lte
  gt : Gives members "gt" WritesBound none options.gt
  gte : Gives members "gte" WritesBound none options.gte
  reverse : Gives members "reverse" WritesFlag false options.reverse
  keys : Gives members "keys" WritesFlag true options.keys
  values : Gives members "values" WritesFlag true options.values
  keyAsBuffer : Gives members "keyAsBuffer" WritesFlag true options.keyAsBuffer
  valueAsBuffer : Gives members "valueAsBuffer" WritesFlag true options.valueAsBuffer
  fillCache : Gives members "fillCache" WritesFlag false options.fillCache
  limit : Gives members "limit" WritesSigned (-1) options.limit
  highWaterMark : Gives members "highWaterMark" WritesCount 16384 options.highWaterMark

variable {members : List (String × Json)} {options : ScanOptions}

instance (members : List (String × Json)) : Decidable (NamedOnce members) :=
  inferInstanceAs (Decidable (List.Nodup _))

private theorem fieldNames_eq : fieldNames = boundNames ++ flagNames ++ ["limit", "highWaterMark"] := rfl

private theorem NamedOnce.count_le (once : NamedOnce members) {name : String} (field : name ∈ fieldNames) :
    (members.map Prod.fst).count name ≤ 1 := by
  have counted := List.nodup_iff_count_le_one.mp once name
  rwa [List.count_filter (List.contains_iff_mem.mpr field)] at counted

private theorem boundNames_subset {name : String} (named : name ∈ boundNames) : name ∈ fieldNames := by
  rw [fieldNames_eq]
  exact List.mem_append_left _ (List.mem_append_left _ named)

private theorem flagNames_subset {name : String} (named : name ∈ flagNames) : name ∈ fieldNames := by
  rw [fieldNames_eq]
  exact List.mem_append_left _ (List.mem_append_right _ named)

/-- Members are read as the options that they describe. -/
theorem ofMembers?_eq_some_iff (once : NamedOnce members) :
    ofMembers? members = some options ↔ Describes members options := by
  have bound (name : String) (named : name ∈ boundNames) (given : Option Bytes) :
      field members name bound? none = some given ↔ Gives members name WritesBound none given :=
    field_eq_some_iff (fun _ _ => bound?_eq_some_iff) (once.count_le (boundNames_subset named))
  have flag (name : String) (named : name ∈ flagNames) (default given : Bool) :
      field members name flag? default = some given ↔ Gives members name WritesFlag default given :=
    field_eq_some_iff (fun _ _ => flag?_eq_some_iff) (once.count_le (flagNames_subset named))
  have limit (given : Int) : field members "limit" signed? (-1) = some given ↔
      Gives members "limit" WritesSigned (-1) given :=
    field_eq_some_iff (fun _ _ => signed?_eq_some_iff) (once.count_le (by simp [fieldNames]))
  have highWaterMark (given : Nat) : field members "highWaterMark" count? 16384 = some given ↔
      Gives members "highWaterMark" WritesCount 16384 given :=
    field_eq_some_iff (fun _ _ => count?_eq_some_iff) (once.count_le (by simp [fieldNames]))
  simp only [boundNames, List.forall_mem_cons] at bound
  simp only [flagNames, List.forall_mem_cons] at flag
  obtain ⟨start, stop, lt, lte, gt, gte, -⟩ := bound
  obtain ⟨reverse, keys, values, keyAsBuffer, valueAsBuffer, fillCache, -⟩ := flag
  constructor
  · intro known
    obtain ⟨start', isStart, known⟩ := Option.bind_eq_some_iff.mp known
    obtain ⟨stop', isStop, known⟩ := Option.bind_eq_some_iff.mp known
    obtain ⟨lt', isLt, known⟩ := Option.bind_eq_some_iff.mp known
    obtain ⟨lte', isLte, known⟩ := Option.bind_eq_some_iff.mp known
    obtain ⟨gt', isGt, known⟩ := Option.bind_eq_some_iff.mp known
    obtain ⟨gte', isGte, known⟩ := Option.bind_eq_some_iff.mp known
    obtain ⟨reverse', isReverse, known⟩ := Option.bind_eq_some_iff.mp known
    obtain ⟨keys', isKeys, known⟩ := Option.bind_eq_some_iff.mp known
    obtain ⟨values', isValues, known⟩ := Option.bind_eq_some_iff.mp known
    obtain ⟨keyAsBuffer', isKeyAsBuffer, known⟩ := Option.bind_eq_some_iff.mp known
    obtain ⟨valueAsBuffer', isValueAsBuffer, known⟩ := Option.bind_eq_some_iff.mp known
    obtain ⟨fillCache', isFillCache, known⟩ := Option.bind_eq_some_iff.mp known
    obtain ⟨limit', isLimit, known⟩ := Option.bind_eq_some_iff.mp known
    obtain ⟨highWaterMark', isHighWaterMark, known⟩ := Option.bind_eq_some_iff.mp known
    obtain rfl := Option.some.inj known
    exact ⟨(start _).mp isStart, (stop _).mp isStop, (lt _).mp isLt, (lte _).mp isLte, (gt _).mp isGt,
      (gte _).mp isGte, (reverse _ _).mp isReverse, (keys _ _).mp isKeys, (values _ _).mp isValues,
      (keyAsBuffer _ _).mp isKeyAsBuffer, (valueAsBuffer _ _).mp isValueAsBuffer,
      (fillCache _ _).mp isFillCache, (limit _).mp isLimit, (highWaterMark _).mp isHighWaterMark⟩
  · intro described
    refine Option.bind_eq_some_iff.mpr ⟨_, (start _).mpr described.start, ?_⟩
    refine Option.bind_eq_some_iff.mpr ⟨_, (stop _).mpr described.stop, ?_⟩
    refine Option.bind_eq_some_iff.mpr ⟨_, (lt _).mpr described.lt, ?_⟩
    refine Option.bind_eq_some_iff.mpr ⟨_, (lte _).mpr described.lte, ?_⟩
    refine Option.bind_eq_some_iff.mpr ⟨_, (gt _).mpr described.gt, ?_⟩
    refine Option.bind_eq_some_iff.mpr ⟨_, (gte _).mpr described.gte, ?_⟩
    refine Option.bind_eq_some_iff.mpr ⟨_, (reverse _ _).mpr described.reverse, ?_⟩
    refine Option.bind_eq_some_iff.mpr ⟨_, (keys _ _).mpr described.keys, ?_⟩
    refine Option.bind_eq_some_iff.mpr ⟨_, (values _ _).mpr described.values, ?_⟩
    refine Option.bind_eq_some_iff.mpr ⟨_, (keyAsBuffer _ _).mpr described.keyAsBuffer, ?_⟩
    refine Option.bind_eq_some_iff.mpr ⟨_, (valueAsBuffer _ _).mpr described.valueAsBuffer, ?_⟩
    refine Option.bind_eq_some_iff.mpr ⟨_, (fillCache _ _).mpr described.fillCache, ?_⟩
    refine Option.bind_eq_some_iff.mpr ⟨_, (limit _).mpr described.limit, ?_⟩
    refine Option.bind_eq_some_iff.mpr ⟨_, (highWaterMark _).mpr described.highWaterMark, ?_⟩
    rfl

/-- Some options are described if and only if every value has the form of its field. -/
theorem exists_describes_iff (once : NamedOnce members) :
    (∃ options, Describes members options) ↔ ∀ member ∈ members, HasForm member.1 member.2 := by
  constructor
  · rintro ⟨options, described⟩ ⟨name, value⟩ member
    have bounds : ∀ name ∈ boundNames, ∃ bound, Gives members name WritesBound none bound := by
      simp only [boundNames, List.forall_mem_cons]
      exact ⟨⟨_, described.start⟩, ⟨_, described.stop⟩, ⟨_, described.lt⟩, ⟨_, described.lte⟩,
        ⟨_, described.gt⟩, ⟨_, described.gte⟩, List.forall_mem_nil _⟩
    have flags : ∀ name ∈ flagNames, ∃ default flag, Gives members name WritesFlag default flag := by
      simp only [flagNames, List.forall_mem_cons]
      exact ⟨⟨_, _, described.reverse⟩, ⟨_, _, described.keys⟩, ⟨_, _, described.values⟩,
        ⟨_, _, described.keyAsBuffer⟩, ⟨_, _, described.valueAsBuffer⟩, ⟨_, _, described.fillCache⟩,
        List.forall_mem_nil _⟩
    refine ⟨fun named => ?_, fun named => ?_, ?_, ?_⟩
    · obtain ⟨bound, gives⟩ := bounds name named
      exact ⟨bound, gives.of_member (once.count_le (boundNames_subset named)) member⟩
    · obtain ⟨default, flag, gives⟩ := flags name named
      exact ⟨flag, gives.of_member (once.count_le (flagNames_subset named)) member⟩
    · rintro rfl
      exact ⟨_, described.limit.of_member (once.count_le (by simp [fieldNames])) member⟩
    · rintro rfl
      exact ⟨_, described.highWaterMark.of_member (once.count_le (by simp [fieldNames])) member⟩
  · intro forms
    have bound (name : String) (named : name ∈ boundNames) :
        ∃ bound, Gives members name WritesBound none bound :=
      exists_gives none fun value member => (forms (name, value) member).bound named
    have flag (name : String) (named : name ∈ flagNames) (default : Bool) :
        ∃ flag, Gives members name WritesFlag default flag :=
      exists_gives default fun value member => (forms (name, value) member).flag named
    have limit : ∃ n, Gives members "limit" WritesSigned (-1) n :=
      exists_gives (-1) fun value member => (forms ("limit", value) member).limit rfl
    have highWaterMark : ∃ n, Gives members "highWaterMark" WritesCount 16384 n :=
      exists_gives 16384 fun value member => (forms ("highWaterMark", value) member).highWaterMark rfl
    simp only [boundNames, List.forall_mem_cons] at bound
    simp only [flagNames, List.forall_mem_cons] at flag
    obtain ⟨⟨start, isStart⟩, ⟨stop, isStop⟩, ⟨lt, isLt⟩, ⟨lte, isLte⟩, ⟨gt, isGt⟩, ⟨gte, isGte⟩, -⟩ :=
      bound
    obtain ⟨reverse, keys, values, keyAsBuffer, valueAsBuffer, fillCache, -⟩ := flag
    obtain ⟨reverse, isReverse⟩ := reverse false
    obtain ⟨keys, isKeys⟩ := keys true
    obtain ⟨values, isValues⟩ := values true
    obtain ⟨keyAsBuffer, isKeyAsBuffer⟩ := keyAsBuffer true
    obtain ⟨valueAsBuffer, isValueAsBuffer⟩ := valueAsBuffer true
    obtain ⟨fillCache, isFillCache⟩ := fillCache false
    obtain ⟨limit, isLimit⟩ := limit
    obtain ⟨highWaterMark, isHighWaterMark⟩ := highWaterMark
    exact ⟨⟨start, stop, lt, lte, gt, gte, reverse, keys, values, keyAsBuffer, valueAsBuffer, fillCache,
      limit, highWaterMark⟩, isStart, isStop, isLt, isLte, isGt, isGte, isReverse, isKeys, isValues,
      isKeyAsBuffer, isValueAsBuffer, isFillCache, isLimit, isHighWaterMark⟩

theorem ofJson?_ofMembers (members : List (String × Json)) :
    ofJson? (Json.ofMembers members) = if NamedOnce members then ofMembers? members else none := by
  have found : (Json.ofMembers members).members? fieldNames =
      if NamedOnce members then some members else none := members?_ofMembers fieldNames members
  rw [ofJson?, found]
  split
  · rw [Option.bind_some]
  · rw [Option.bind_none]

/-- A text is read as given options exactly if the members that it spells describe them. -/
theorem read_eq_ok_iff {text : String} (spelled : Spelled text (Json.ofMembers members)) :
    read text = .ok options ↔ NamedOnce members ∧ Describes members options := by
  unfold read
  rw [read?_of_spelled spelled, Option.bind_some, ofJson?_ofMembers]
  by_cases once : NamedOnce members
  · rw [if_pos once, and_iff_right once, ← ofMembers?_eq_some_iff once]
    cases ofMembers? members with
    | none => simp
    | some known => simp
  · rw [if_neg once]
    simp [once]

theorem exists_read_iff {text : String} (spelled : Spelled text (Json.ofMembers members)) :
    (∃ options, read text = .ok options) ↔ Proper members := by
  simp only [read_eq_ok_iff spelled]
  constructor
  · rintro ⟨options, once, described⟩
    exact ⟨once, (exists_describes_iff once).mp ⟨options, described⟩⟩
  · rintro ⟨once, forms⟩
    obtain ⟨options, described⟩ := (exists_describes_iff once).mpr forms
    exact ⟨options, once, described⟩

theorem read_eq_error {text : String} (unread : ¬ ∃ options, read text = .ok options) :
    read text = .error .malformedOptions := by
  unfold read at unread ⊢
  split
  · rename_i options known
    rw [known] at unread
    exact absurd ⟨options, rfl⟩ unread
  · rfl

/-- A bound as a value: its bytes one by one, or null for none. -/
def boundValue : Option Bytes → Json
  | none => .null
  | some bytes => .array (bytes.map fun byte => .ofInt byte.toNat)

private theorem boundValue_writes (bound : Option Bytes) : WritesBound bound (boundValue bound) := by
  cases bound with
  | none => exact .absent
  | some bytes => exact .bytes bytes

/-- The members that write options, one for each field. -/
def toMembers (options : ScanOptions) : List (String × Json) :=
  [("start", boundValue options.start), ("end", boundValue options.stop), ("lt", boundValue options.lt),
    ("lte", boundValue options.lte), ("gt", boundValue options.gt), ("gte", boundValue options.gte),
    ("reverse", .bool options.reverse), ("keys", .bool options.keys), ("values", .bool options.values),
    ("keyAsBuffer", .bool options.keyAsBuffer), ("valueAsBuffer", .bool options.valueAsBuffer),
    ("fillCache", .bool options.fillCache), ("limit", .ofInt options.limit),
    ("highWaterMark", .ofInt options.highWaterMark)]

/-- Options whose numbers have 64 bits. -/
structure Fits (options : ScanOptions) : Prop where
  limit : -2 ^ 63 ≤ options.limit ∧ options.limit < 2 ^ 63
  highWaterMark : options.highWaterMark < 2 ^ 64

def known (members : List (String × Json)) : List (String × Json) :=
  members.filter fun member => fieldNames.contains member.1

private theorem namedOnce_iff_known : NamedOnce members ↔ ((known members).map Prod.fst).Nodup := by
  unfold NamedOnce known
  rw [List.filter_map]
  rfl

private theorem known_toMembers (options : ScanOptions) : known options.toMembers = options.toMembers := by
  apply List.filter_eq_self.mpr
  intro member own
  exact List.contains_iff_mem.mpr (List.mem_map_of_mem (f := Prod.fst) own)

/-- Options are described by their own members, in any order and with any others among them. -/
theorem describes_of_perm (fits : Fits options) (reordered : (known members).Perm options.toMembers) :
    NamedOnce members ∧ Describes members options := by
  have listed : ∀ member ∈ options.toMembers, member ∈ members := fun member own =>
    List.mem_of_mem_filter (reordered.mem_iff.mpr own)
  constructor
  · have names : ((known members).map Prod.fst).Perm fieldNames := reordered.map Prod.fst
    have distinct : fieldNames.Nodup := by decide
    exact namedOnce_iff_known.mpr (names.nodup_iff.mpr distinct)
  · simp only [toMembers, List.forall_mem_cons] at listed
    obtain ⟨start, stop, lt, lte, gt, gte, reverse, keys, values, keyAsBuffer, valueAsBuffer, fillCache,
      limit, highWaterMark, -⟩ := listed
    exact
      { start := .written start (boundValue_writes _)
        stop := .written stop (boundValue_writes _)
        lt := .written lt (boundValue_writes _)
        lte := .written lte (boundValue_writes _)
        gt := .written gt (boundValue_writes _)
        gte := .written gte (boundValue_writes _)
        reverse := .written reverse rfl
        keys := .written keys rfl
        values := .written values rfl
        keyAsBuffer := .written keyAsBuffer rfl
        valueAsBuffer := .written valueAsBuffer rfl
        fillCache := .written fillCache rfl
        limit := .written limit ⟨fits.limit, rfl⟩
        highWaterMark := .written highWaterMark ⟨fits.highWaterMark, rfl⟩ }

/-- Every list of members has written forms. Each of them is read exactly if no field is named twice and
each value has the form of its field, and else it is an invalid argument; what is read is what the members
describe. So options written with their members in any order, and with others among them, are read
back. -/
theorem read_exactly (members : List (String × Json)) :
    Spelled (Json.ofMembers members).text (Json.ofMembers members) ∧
      ∀ text, Spelled text (Json.ofMembers members) →
        ((∃ options, read text = .ok options) ↔ Proper members) ∧
        (¬ Proper members → read text = .error .malformedOptions ∧
          Failure.malformedOptions.report.code = .invalidArgument) ∧
        (∀ options, read text = .ok options → Describes members options) ∧
        ∀ options, Fits options → (known members).Perm options.toMembers → read text = .ok options := by
  refine ⟨text_spelled _, fun text spelled => ⟨exists_read_iff spelled, fun improper => ⟨?_, rfl⟩,
    fun options known => ((read_eq_ok_iff spelled).mp known).2, fun options fits reordered => ?_⟩⟩
  · apply read_eq_error
    rwa [exists_read_iff spelled]
  · exact (read_eq_ok_iff spelled).mpr (describes_of_perm fits reordered)

/-- Options in a text with blanks around it, the last field first and a member before them that names no
field but holds an object that does; and a text whose limit is none. -/
theorem read_exactly_reversed :
    read (String.ofList (' ' :: write (Json.ofMembers
        (("hint", Json.ofMembers [("limit", .null)]) ::
          ({ gt := some [0xC3, 0xA9], limit := -7 } : ScanOptions).toMembers.reverse)) ++ ['\n'])) =
        .ok { gt := some [0xC3, 0xA9], limit := -7 } ∧
      read (Json.ofMembers [("limit", .ofString "ten")]).text = .error .malformedOptions := by
  constructor
  · have space : Blank [' '] := List.forall_mem_singleton.mpr (.inl rfl)
    have newline : Blank ['\n'] := List.forall_mem_singleton.mpr (.inr (.inr (.inl rfl)))
    have read := (read_exactly (("hint", Json.ofMembers [("limit", .null)]) ::
      ({ gt := some [0xC3, 0xA9], limit := -7 } : ScanOptions).toMembers.reverse)).2 _
        ⟨[' '], _, ['\n'], space, write_spells _, newline, String.toList_ofList⟩
    refine read.2.2.2 _ ⟨by decide, by decide⟩ ?_
    have foreign : known [("hint", Json.ofMembers [("limit", .null)])] = [] := by
      apply List.filter_eq_nil_iff.mpr
      simp [fieldNames]
    have own := (List.reverse_perm ({ gt := some [0xC3, 0xA9], limit := -7 } : ScanOptions).toMembers).filter
      fun member => fieldNames.contains member.1
    rw [← known, ← known, known_toMembers] at own
    rw [← List.singleton_append, known, List.filter_append, ← known, ← known, foreign]
    exact own
  · refine (((read_exactly _).2 _ (text_spelled _)).2.1 ?_).1
    intro proper
    obtain ⟨n, -, written⟩ := (proper.forms _ (List.mem_singleton_self _)).limit rfl
    cases written

end ScanOptions
end KeyScan
