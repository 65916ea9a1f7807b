import Mathlib.Data.List.Induction
import RabbitRs.Consumer.Attempts

/-!
The way of headers over the wire: `publish_header_value` encodes them, `map_headers` decodes those of
a delivery. The decoder reads every AMQP type, the encoder writes one for each kind of value.
-/

namespace RabbitRs

open Consumer (putHeader)

def isFinite (bits : UInt64) : Bool := bits.toNat / 2 ^ 52 % 2 ^ 11 ≠ 2047

/-- `f64::from` on the bits of an `f32`; a subnormal one becomes normal. -/
def widen (bits : UInt32) : UInt64 :=
  let sign := bits.toNat / 2 ^ 31 * 2 ^ 63
  let exponent := bits.toNat / 2 ^ 23 % 2 ^ 8
  let fraction := bits.toNat % 2 ^ 23
  UInt64.ofNat <|
    if exponent = 255 then sign + 2047 * 2 ^ 52 + fraction * 2 ^ 29
    else if 0 < exponent then sign + (exponent + 896) * 2 ^ 52 + fraction * 2 ^ 29
    else if fraction = 0 then sign
    else sign + (fraction.log2 + 874) * 2 ^ 52 + (fraction - 2 ^ fraction.log2) * 2 ^ (52 - fraction.log2)

def headerFloat (bits : UInt64) : Option HeaderValue := if isFinite bits then some (.double bits) else none

mutual

def mapHeaderValue : AmqpValue → Option HeaderValue
  | .boolean value => some (.boolean value)
  | .shortShortInt value => some (.integer value.toInt64)
  | .shortShortUInt value => some (.integer (Int64.ofNat value.toNat))
  | .shortInt value => some (.integer value.toInt64)
  | .shortUInt value => some (.integer (Int64.ofNat value.toNat))
  | .longInt value => some (.integer value.toInt64)
  | .longUInt value => some (.integer (Int64.ofNat value.toNat))
  | .longLongInt value => some (.integer value)
  | .float bits => headerFloat (widen bits)
  | .double bits => headerFloat bits
  | .shortString value => some (.binary value.toUTF8.toList)
  | .longString value => some (.binary value)
  | .timestamp value => if value.toNat ≤ i64Max then some (.integer (Int64.ofNat value.toNat)) else none
  | .fieldArray values => (mapHeaderArray values).map .array
  | .fieldTable values => some (.table (mapHeaderTable values))
  | .byteArray value => some (.binary value)
  | .void => some .void
  | .decimalValue scale value => some (.decimal scale value)

/-- `collect::<Option<Vec<_>>>`: one value without a counterpart and there is no array. -/
def mapHeaderArray : List AmqpValue → Option (List HeaderValue)
  | [] => some []
  | value :: rest => (mapHeaderValue value).bind fun value => (mapHeaderArray rest).map (value :: ·)

/-- An entry whose value has no counterpart is left out. -/
def mapHeaderTable : List (String × AmqpValue) → Headers
  | [] => []
  | (name, value) :: rest =>
    match mapHeaderValue value with
    | some value => putHeader (mapHeaderTable rest) name value
    | none => mapHeaderTable rest

end

def mapHeaders (headers : Option FieldTable) : Headers := headers.elim [] mapHeaderTable

/-- The headers `publish_properties` sets, if it sets any. -/
def publishedHeaders (properties : PublishProperties) : Option FieldTable :=
  if properties.headers.isEmpty && properties.delayMs.isNone then none
  else some (publishHeaderFields properties)

namespace HeaderValue

mutual

/-- What the types of the source hold to: doubles are finite, and tables are `BTreeMap`s. -/
def valid : HeaderValue → Bool
  | .double bits => isFinite bits
  | .array values => validArray values
  | .table values => validTable values
  | .void | .boolean _ | .integer _ | .binary _ | .decimal _ _ => true

def validArray : List HeaderValue → Bool
  | [] => true
  | value :: rest => value.valid && validArray rest

def validTable : List (String × HeaderValue) → Bool
  | [] => true
  | (name, value) :: rest => rest.all (fun entry => name < entry.1) && value.valid && validTable rest

end

end HeaderValue

section

variable {headers : Headers} {name : String} {value : HeaderValue}

theorem putHeader_first (first : ∀ entry ∈ headers, name < entry.1) :
    putHeader headers name value = (name, value) :: headers := by
  have none : headers.filter (·.1 < name) = [] :=
    List.filter_eq_nil_iff.mpr fun entry member => by simpa using String.lt_asymm (first entry member)
  have all : headers.filter (name < ·.1) = headers :=
    List.filter_eq_self.mpr fun entry member => decide_eq_true (first entry member)
  rw [putHeader, none, all, List.nil_append]

theorem putHeader_last (last : ∀ entry ∈ headers, entry.1 < name) :
    putHeader headers name value = headers ++ [(name, value)] := by
  have all : headers.filter (·.1 < name) = headers :=
    List.filter_eq_self.mpr fun entry member => decide_eq_true (last entry member)
  have none : headers.filter (name < ·.1) = [] :=
    List.filter_eq_nil_iff.mpr fun entry member => by simpa using String.lt_asymm (last entry member)
  rw [putHeader, none, all]

end

mutual

theorem mapHeaderValue_publish : (value : HeaderValue) → value.valid = true →
    mapHeaderValue (publishHeaderValue value) = some value
  | .void, _ | .boolean _, _ | .integer _, _ | .binary _, _ | .decimal _ _, _ => rfl
  | .double bits, finite => if_pos finite
  | .array values, valid => by
    rw [publishHeaderValue, mapHeaderValue, mapHeaderArray_publish values valid]
    rfl
  | .table values, valid => by
    rw [publishHeaderValue, mapHeaderValue, mapHeaderTable_publish values valid]

theorem mapHeaderArray_publish : (values : List HeaderValue) → HeaderValue.validArray values = true →
    mapHeaderArray (publishHeaderArray values) = some values
  | [], _ => rfl
  | value :: rest, valid => by
    obtain ⟨first, others⟩ := (Bool.and_eq_true _ _ ▸ valid : _ ∧ _)
    rw [publishHeaderArray, mapHeaderArray, mapHeaderValue_publish value first, mapHeaderArray_publish rest others]
    rfl

theorem mapHeaderTable_publish : (values : List (String × HeaderValue)) → HeaderValue.validTable values = true →
    mapHeaderTable (publishHeaderTable values) = values
  | [], _ => rfl
  | (name, value) :: rest, valid => by
    rw [HeaderValue.validTable, Bool.and_eq_true, Bool.and_eq_true, List.all_eq_true] at valid
    obtain ⟨⟨ahead, first⟩, others⟩ := valid
    rw [publishHeaderTable, mapHeaderTable, mapHeaderValue_publish value first, mapHeaderTable_publish rest others]
    exact putHeader_first fun entry member => of_decide_eq_true (ahead entry member)

end

theorem HeaderValue.validTable_iff (headers : Headers) : HeaderValue.validTable headers = true ↔
    headers.Pairwise (fun a b => a.1 < b.1) ∧ ∀ entry ∈ headers, entry.2.valid = true := by
  induction headers with
  | nil => simp [validTable]
  | cons entry rest ih =>
    rw [validTable, Bool.and_eq_true, Bool.and_eq_true, List.all_eq_true, ih, List.pairwise_cons,
      List.forall_mem_cons]
    simp only [decide_eq_true_eq]
    exact and_and_and_comm

theorem putHeaders_eq {headers : Headers} (ascending : headers.Pairwise fun a b => a.1 < b.1) :
    putHeaders [] headers = (headers.map fun entry => (entry.1, publishHeaderValue entry.2)).reverse := by
  induction headers using List.reverseRecOn with
  | nil => rfl
  | append_singleton earlier last ih =>
    obtain ⟨ordered, -, ahead⟩ := List.pairwise_append.mp ascending
    -- no earlier entry has the name, so none is replaced
    have fresh : (putHeaders [] earlier).filter (·.1 != last.1) = putHeaders [] earlier := by
      rw [ih ordered]
      refine List.filter_eq_self.mpr fun entry member => bne_iff_ne.mpr fun equal => ?_
      obtain ⟨other, among, rfl⟩ := List.mem_map.mp (List.mem_reverse.mp member)
      have less := ahead other among last List.mem_cons_self
      rw [show other.1 = last.1 from equal] at less
      exact String.lt_irrefl _ less
    rw [putHeaders, List.foldl_append, List.foldl_cons, List.foldl_nil, FieldTable.put, ← putHeaders, fresh, ih ordered,
      List.map_append, List.reverse_append]
    rfl

theorem mapHeaderTable_reverse {headers : Headers} (valid : HeaderValue.validTable headers = true) :
    mapHeaderTable (headers.map fun entry => (entry.1, publishHeaderValue entry.2)).reverse = headers := by
  rw [HeaderValue.validTable_iff] at valid
  induction headers using List.reverseRecOn with
  | nil => rfl
  | append_singleton earlier last ih =>
    obtain ⟨ascending, sound⟩ := valid
    obtain ⟨ordered, -, ahead⟩ := List.pairwise_append.mp ascending
    rw [List.map_append, List.reverse_append, List.map_singleton, List.reverse_singleton, List.singleton_append,
      mapHeaderTable, mapHeaderValue_publish last.2 (sound last (by simp)),
      ih ⟨ordered, fun entry member => sound entry (List.mem_append_left _ member)⟩]
    exact putHeader_last fun entry member => ahead entry member last List.mem_cons_self

/-- `insert` takes the place of an entry of the same name. -/
theorem putHeader_filter (headers : Headers) (name : String) (value : HeaderValue) :
    putHeader (headers.filter (·.1 != name)) name value = putHeader headers name value := by
  have narrow (side : String × HeaderValue → Bool) (apart : ∀ entry, side entry = true → entry.1 ≠ name) :
      (headers.filter (·.1 != name)).filter side = headers.filter side := by
    rw [List.filter_filter]
    refine List.filter_congr fun entry _ => ?_
    cases kept : side entry with
    | false => rfl
    | true => simpa using apart entry kept
  rw [putHeader, narrow _ fun _ less => String.ne_of_lt (of_decide_eq_true less),
    narrow _ fun _ less => (String.ne_of_lt (of_decide_eq_true less)).symm, putHeader]

/-- What is published as a header comes back on delivery, at every depth, and so does the whole table
of a publication, with the `x-delay` of the adapter in it where a delay is asked for. -/
theorem headers_survive_wire :
    (∀ value : HeaderValue, value.valid = true → mapHeaderValue (publishHeaderValue value) = some value) ∧
    ∀ properties : PublishProperties, (HeaderValue.table properties.headers).valid = true →
      mapHeaders (publishedHeaders properties) = match properties.delayMs with
        | none => properties.headers
        | some ms => putHeader properties.headers "x-delay" (.integer (Int64.ofNat (clampI64 ms))) := by
  refine ⟨mapHeaderValue_publish, fun properties valid => ?_⟩
  obtain ⟨ascending, sound⟩ := (HeaderValue.validTable_iff _).mp valid
  unfold publishedHeaders
  split
  · rename_i bare
    rw [Bool.and_eq_true, List.isEmpty_iff, Option.isNone_iff_eq_none] at bare
    rw [bare.1, bare.2]
    rfl
  · rw [publishHeaderFields, putHeaders_eq ascending]
    cases properties.delayMs with
    | none => exact mapHeaderTable_reverse valid
    | some ms =>
      have kept : HeaderValue.validTable (properties.headers.filter (·.1 != "x-delay")) = true :=
        (HeaderValue.validTable_iff _).mpr
          ⟨ascending.filter _, fun entry member => sound entry (List.mem_filter.mp member).1⟩
      have others := mapHeaderTable_reverse kept
      change putHeader (mapHeaderTable (List.filter _ (List.reverse _))) _ _ = _
      rw [List.filter_reverse, List.filter_map]
      exact (congrArg (putHeader · _ _) others).trans (putHeader_filter _ _ _)

def traceHeaders : Headers :=
  [("attempts", .integer 3), ("trace", .table [("hops", .array [.double 0x3FF8000000000000, .void]),
    ("span", .binary [1, 2])])]

theorem traceHeaders_survive : mapHeaderTable (publishHeaderTable traceHeaders) = traceHeaders ∧
    mapHeaders (publishedHeaders ⟨none, none, none, none, traceHeaders, true⟩) = traceHeaders ∧
    mapHeaders (publishedHeaders ⟨none, none, none, some 250, traceHeaders, true⟩) =
      traceHeaders ++ [("x-delay", .integer 250)] := by
  have valid : (HeaderValue.table traceHeaders).valid = true := by decide +kernel
  have nested := headers_survive_wire.1 (.table traceHeaders) valid
  refine ⟨HeaderValue.table.inj (Option.some.inj nested), ?_, ?_⟩
  · exact headers_survive_wire.2 ⟨none, none, none, none, traceHeaders, true⟩ valid
  · exact (headers_survive_wire.2 ⟨none, none, none, some 250, traceHeaders, true⟩ valid).trans (by decide +kernel)

end RabbitRs
