import AztecPxe.AbiLocality
import AztecPxe.EventStore

/-! The named members of decoded events: `decode_log_fields` of `contract/events.rs` and
`decode_private_events` of `base_wallet.rs`. Both put the i-th name beside the i-th field. A
member's fields are where the sizes of the members before it end, which is the same place as long
as every member takes one field. -/
namespace AztecPxe
open Abi AbiCodec

/-- `wallet.rs::EventMetadataDefinition`. -/
structure EventMetadataDefinition where
  eventSelector : EventSelector
  abiType : AbiType
  fieldNames : List String

/-- `pxe.rs::PackedPrivateEvent`. -/
structure PackedPrivateEvent where
  packedEvent : List Fr
  txHash : TxHash
  l2BlockNumber : Nat
  l2BlockHash : String
  eventSelector : EventSelector

/-- `wallet.rs::PrivateEventMetadata`. -/
structure PrivateEventMetadata where
  txHash : TxHash
  blockNumber : Option Nat
  logIndex : Option Nat

/-- `wallet.rs::PrivateEvent`. -/
structure PrivateEvent where
  event : Json
  metadata : PrivateEventMetadata

namespace EventMembers

/-- A map filled by inserting these entries, one after the other. -/
def collect {α : Type} (entries : List (String × α)) : List (String × α) :=
  entries.foldl (fun map entry => insertMember entry.1 entry.2 map) []

/-- `serde_json::to_value` of a field. -/
def fieldValue (field : Fr) : Json := .str (hex32 field.val)

/-- The names of `decode_log_fields`. -/
def logFieldNames (eventMetadata : EventMetadataDefinition) : Except Error (List String) :=
  match eventMetadata.abiType with
  | .struct _ fields =>
    if eventMetadata.fieldNames = [] then .ok (fields.map (·.name))
    else if eventMetadata.fieldNames.length ≠ fields.length then
      .error (.abi ("event metadata field name count " ++ toString eventMetadata.fieldNames.length ++
        " does not match abi struct field count " ++ toString fields.length))
    else .ok eventMetadata.fieldNames
  | _ => .ok eventMetadata.fieldNames

/-- `decode_log_fields`. -/
def decodeLogFields (data : List Fr) (eventMetadata : EventMetadataDefinition) :
    Except Error (List (String × Fr)) :=
  match data.getLast? with
  | none => .error (.abi "log data is empty")
  | some selector =>
    if selector ≠ eventMetadata.eventSelector.inner then
      .error (.abi ("event selector mismatch: expected " ++
        hex32 eventMetadata.eventSelector.inner.val ++ ", got " ++ hex32 selector.val))
    else do
      let fieldData := data.dropLast
      let names ← logFieldNames eventMetadata
      if fieldData.length < names.length then
        .error (.abi ("not enough fields in log data: expected at least " ++ toString names.length ++
          ", got " ++ toString fieldData.length))
      else return collect (names.zip fieldData)

/-- `resolve_event_field_names`. -/
def resolveEventFieldNames (eventMetadata : EventMetadataDefinition) : List String :=
  if eventMetadata.fieldNames ≠ [] then eventMetadata.fieldNames
  else match eventMetadata.abiType with
    | .struct _ fields => fields.map (·.name)
    | _ => []

/-- What `decode_private_events` makes of one event; a name past the fields is left out. -/
def decodePrivateEvent (eventMetadata : EventMetadataDefinition) (pe : PackedPrivateEvent) :
    PrivateEvent where
  event := .obj (collect (((resolveEventFieldNames eventMetadata).zip pe.packedEvent).map
    (fun entry => (entry.1, fieldValue entry.2))))
  metadata := { txHash := pe.txHash, blockNumber := some pe.l2BlockNumber, logIndex := none }

/-- `decode_private_events`. -/
def decodePrivateEvents (packed : List PackedPrivateEvent) (eventMetadata : EventMetadataDefinition) :
    List PrivateEvent :=
  packed.map (decodePrivateEvent eventMetadata)

/-! ## Looking up what was inserted -/

section Collecting
variable {α β : Type}

theorem lookup_cons (name key : String) (value : α) (map : List (String × α)) :
    ((name, value) :: map).lookup key = if key = name then some value else map.lookup key := by
  rw [List.lookup_cons]
  by_cases same : key = name
  · simp [same]
  · simp [beq_false_of_ne same, same]

theorem lookup_insertMember (name key : String) (value : α) (map : List (String × α)) :
    (insertMember name value map).lookup key = if key = name then some value else map.lookup key := by
  induction map with
  | nil => exact lookup_cons name key value []
  | cons entry rest ih =>
    obtain ⟨held, old⟩ := entry
    unfold insertMember
    split
    next => exact lookup_cons name key value _
    next =>
      split
      next replaced =>
        subst replaced
        simp only [lookup_cons]
        split <;> rfl
      next other =>
        simp only [lookup_cons, ih]
        by_cases same : key = name
        · subst same
          rw [if_neg other, if_pos rfl, if_pos rfl]
        · rw [if_neg same, if_neg same]

/-- A position is the last one of its name. -/
def LastNamed (names : List String) (name : String) (j : Nat) : Prop :=
  names[j]? = some name ∧ ∀ i, j < i → names[i]? ≠ some name

theorem lastNamed_succ {first name : String} {names : List String} {j : Nat} :
    LastNamed (first :: names) name (j + 1) ↔ LastNamed names name j := by
  constructor
  · rintro ⟨here, later⟩
    exact ⟨here, fun i past => later (i + 1) (Nat.succ_lt_succ past)⟩
  · rintro ⟨here, later⟩
    refine ⟨here, fun i past => ?_⟩
    cases i with
    | zero => exact absurd past (Nat.not_lt_zero _)
    | succ i => exact later i (Nat.lt_of_succ_lt_succ past)

theorem lastNamed_zero {first name : String} {names : List String} :
    LastNamed (first :: names) name 0 ↔ first = name ∧ ∀ i : Nat, names[i]? ≠ some name := by
  constructor
  · rintro ⟨here, later⟩
    exact ⟨Option.some.inj here, fun i => later (i + 1) (Nat.succ_pos i)⟩
  · rintro ⟨rfl, later⟩
    refine ⟨rfl, fun i past => ?_⟩
    cases i with
    | zero => exact absurd past (Nat.lt_irrefl _)
    | succ i => exact later i

/-- The last position of a name decides, and where the name has none the map is as before. -/
theorem lookup_inserted {names : List String} {values : List α} (enough : names.length ≤ values.length)
    (map : List (String × α)) (name : String) (value : α) :
    ((names.zip values).foldl (fun map entry => insertMember entry.1 entry.2 map) map).lookup name =
        some value ↔
      (∃ j, LastNamed names name j ∧ values[j]? = some value) ∨
        (∀ i : Nat, names[i]? ≠ some name) ∧ map.lookup name = some value := by
  induction names generalizing values map with
  | nil => simp [LastNamed]
  | cons first names ih =>
    cases values with
    | nil => exact absurd enough (Nat.not_succ_le_zero _)
    | cons head values =>
      rw [List.zip_cons_cons, List.foldl_cons, ih (Nat.le_of_succ_le_succ enough), lookup_insertMember]
      constructor
      · rintro (⟨j, last, found⟩ | ⟨absent, found⟩)
        · exact .inl ⟨j + 1, lastNamed_succ.mpr last, found⟩
        · split at found
          next same => exact .inl ⟨0, lastNamed_zero.mpr ⟨same.symm, absent⟩, found⟩
          next other =>
            refine .inr ⟨fun i => ?_, found⟩
            cases i with
            | zero => exact fun same => other (Option.some.inj same).symm
            | succ i => exact absent i
      · rintro (⟨j, last, found⟩ | ⟨absent, found⟩)
        · cases j with
          | succ j => exact .inl ⟨j, lastNamed_succ.mp last, found⟩
          | zero =>
            obtain ⟨rfl, later⟩ := lastNamed_zero.mp last
            exact .inr ⟨later, by rw [if_pos rfl]; exact found⟩
        · refine .inr ⟨fun i => absent (i + 1), ?_⟩
          rw [if_neg (fun same => absent 0 (congrArg some same.symm))]
          exact found

/-- A name is bound to what its last position holds. -/
theorem lookup_collect {names : List String} {values : List α} (enough : names.length ≤ values.length)
    (name : String) (value : α) :
    (collect (names.zip values)).lookup name = some value ↔
      ∃ j, LastNamed names name j ∧ values[j]? = some value := by
  unfold collect
  rw [lookup_inserted enough]
  simp

theorem insertMember_map (f : α → β) (name : String) (value : α) (map : List (String × α)) :
    insertMember name (f value) (map.map (fun entry => (entry.1, f entry.2))) =
      (insertMember name value map).map (fun entry => (entry.1, f entry.2)) := by
  induction map with
  | nil => rfl
  | cons entry rest ih =>
    obtain ⟨held, old⟩ := entry
    unfold insertMember
    rw [List.map_cons]
    dsimp only
    split
    next => rfl
    next =>
      split
      next => rfl
      next => rw [ih, List.map_cons]

theorem collect_map (f : α → β) (entries : List (String × α)) :
    collect (entries.map (fun entry => (entry.1, f entry.2))) =
      (collect entries).map (fun entry => (entry.1, f entry.2)) := by
  have any : ∀ map : List (String × α),
      (entries.map (fun entry => (entry.1, f entry.2))).foldl
          (fun map entry => insertMember entry.1 entry.2 map)
          (map.map (fun entry => (entry.1, f entry.2))) =
        (entries.foldl (fun map entry => insertMember entry.1 entry.2 map) map).map
          (fun entry => (entry.1, f entry.2)) := by
    induction entries with
    | nil => exact fun _ => rfl
    | cons entry rest ih =>
      intro map
      rw [List.map_cons, List.foldl_cons, List.foldl_cons, ← ih, ← insertMember_map]
  exact any []

theorem lookup_map (f : α → β) (name : String) (map : List (String × α)) :
    (map.map (fun entry => (entry.1, f entry.2))).lookup name = (map.lookup name).map f := by
  induction map with
  | nil => rfl
  | cons entry rest ih =>
    rw [List.map_cons, List.lookup_cons, List.lookup_cons, ih]
    cases name == entry.1 <;> rfl

end Collecting

/-! ## A member's own fields -/

/-- Where the fields of the k-th member start. -/
def memberOffset (members : List AbiParameter) (k : Nat) : Nat :=
  ((members.take k).map (·.typ.size)).sum

/-- The fields of a member of this size, from its offset on. -/
def memberFields (members : List AbiParameter) (k size : Nat) (fields : List Fr) :
    List (Option Fr) :=
  (List.range size).map (fun i => fields[memberOffset members k + i]?)

/-- Each member's name is bound to the fields at the member's own offset. -/
def Binds {α : Type} (members : List AbiParameter) (fields : List Fr) (shown : Fr → α)
    (bound : String → Option α) : Prop :=
  ∀ k p, members[k]? = some p →
    ∃ f, memberFields members k p.typ.size fields = [some f] ∧ bound p.name = some (shown f)

/-- Both decoders bind every member to its own fields, and they agree. -/
def MembersBound (eventMetadata : EventMetadataDefinition) (members : List AbiParameter)
    (log : List Fr) (packed : PackedPrivateEvent) : Prop :=
  ∃ event, decodeLogFields log eventMetadata = .ok event ∧
    Binds members log.dropLast id (fun name => event.lookup name) ∧
    Binds members packed.packedEvent fieldValue (decodePrivateEvent eventMetadata packed).event.get ∧
    ∀ name, (decodePrivateEvent eventMetadata packed).event.get name =
      (event.lookup name).map fieldValue

/-- Each member is one field at its own position, the names are as many as the members, and a name
given twice is given to the same field. -/
structure InPlace (eventMetadata : EventMetadataDefinition) (members : List AbiParameter)
    (log packed : List Fr) : Prop where
  counted : eventMetadata.fieldNames = [] ∨ eventMetadata.fieldNames.length = members.length
  selected : log.getLast? = some eventMetadata.eventSelector.inner
  enough : members.length < log.length
  same : packed.take members.length = log.take members.length
  single : ∀ p ∈ members, p.typ.size = 1
  named : ∀ (k : Nat) (p : AbiParameter), members[k]? = some p →
    ∃ j, LastNamed (resolveEventFieldNames eventMetadata) p.name j ∧ log[j]? = log[k]?

section Members
variable {members : List AbiParameter} {fields : List Fr}

theorem memberOffset_single (single : ∀ p ∈ members, p.typ.size = 1) {k : Nat}
    (inside : k ≤ members.length) : memberOffset members k = k := by
  have ones : (members.take k).map (·.typ.size) = List.replicate k 1 := by
    rw [List.eq_replicate_iff]
    refine ⟨by rw [List.length_map, List.length_take, Nat.min_eq_left inside], fun size held => ?_⟩
    obtain ⟨p, listed, rfl⟩ := List.mem_map.mp held
    exact single p (List.mem_of_mem_take listed)
  rw [memberOffset, ones, List.sum_replicate, smul_eq_mul, Nat.mul_one]

theorem Binds.single {α : Type} {shown : Fr → α} {bound : String → Option α}
    (binds : Binds members fields shown bound) : ∀ p ∈ members, p.typ.size = 1 := by
  intro p listed
  obtain ⟨k, found⟩ := List.mem_iff_getElem?.mp listed
  obtain ⟨f, own, -⟩ := binds k p found
  have length := congrArg List.length own
  simpa [memberFields] using length

theorem memberFields_single (single : ∀ p ∈ members, p.typ.size = 1) {k : Nat} {p : AbiParameter}
    (found : members[k]? = some p) : memberFields members k p.typ.size fields = [fields[k]?] := by
  have inside := (List.getElem?_eq_some_iff.mp found).1
  rw [single p (List.mem_of_getElem? found), memberFields,
    memberOffset_single single (Nat.le_of_lt inside)]
  rfl

/-- With one field each, a member is bound when its name is bound to the field at its position. -/
theorem binds_iff {α : Type} {shown : Fr → α} {bound : String → Option α} :
    Binds members fields shown bound ↔ (∀ p ∈ members, p.typ.size = 1) ∧
      ∀ (k : Nat) (p : AbiParameter), members[k]? = some p →
        ∃ f, fields[k]? = some f ∧ bound p.name = some (shown f) := by
  constructor
  · intro binds
    refine ⟨binds.single, fun k p found => ?_⟩
    obtain ⟨f, own, held⟩ := binds k p found
    rw [memberFields_single binds.single found] at own
    exact ⟨f, (List.cons.inj own).1, held⟩
  · rintro ⟨single, each⟩ k p found
    obtain ⟨f, own, held⟩ := each k p found
    exact ⟨f, by rw [memberFields_single single found, own], held⟩

end Members

section Decoders
variable {eventMetadata : EventMetadataDefinition} {name : String} {members : List AbiParameter}
  {log : List Fr} {event : List (String × Fr)}

/-- The names of both decoders are the same ones, where the public one has any. -/
theorem logFieldNames_eq_ok (struct : eventMetadata.abiType = .struct name members)
    {names : List String} : logFieldNames eventMetadata = .ok names ↔
      (eventMetadata.fieldNames = [] ∨ eventMetadata.fieldNames.length = members.length) ∧
        resolveEventFieldNames eventMetadata = names := by
  unfold logFieldNames resolveEventFieldNames
  simp only [struct]
  by_cases none_given : eventMetadata.fieldNames = []
  · simp [none_given]
  · by_cases as_many : eventMetadata.fieldNames.length = members.length
    · simp [none_given, as_many]
    · simp [none_given, as_many]

theorem length_resolveEventFieldNames (struct : eventMetadata.abiType = .struct name members)
    (counted : eventMetadata.fieldNames = [] ∨ eventMetadata.fieldNames.length = members.length) :
    (resolveEventFieldNames eventMetadata).length = members.length := by
  unfold resolveEventFieldNames
  split
  next given => exact counted.resolve_left given
  next => rw [struct, List.length_map]

theorem decodeLogFields_eq_ok (struct : eventMetadata.abiType = .struct name members) :
    decodeLogFields log eventMetadata = .ok event ↔
      log.getLast? = some eventMetadata.eventSelector.inner ∧
      (eventMetadata.fieldNames = [] ∨ eventMetadata.fieldNames.length = members.length) ∧
      members.length < log.length ∧
      event = collect ((resolveEventFieldNames eventMetadata).zip log.dropLast) := by
  unfold decodeLogFields
  cases last : log.getLast? with
  | none => simp
  | some selector =>
    have some_log : 0 < log.length := by
      cases log with
      | nil => cases last
      | cons => exact Nat.succ_pos _
    dsimp only
    by_cases selected : selector = eventMetadata.eventSelector.inner
    · rw [if_neg (not_not.mpr selected), bind_eq_ok, selected]
      constructor
      · rintro ⟨names, named, done⟩
        obtain ⟨counted, rfl⟩ := (logFieldNames_eq_ok struct).mp named
        rw [length_resolveEventFieldNames struct counted, List.length_dropLast] at done
        split at done
        next => cases done
        next enough =>
          cases done
          exact ⟨rfl, counted, by omega, rfl⟩
      · rintro ⟨-, counted, enough, rfl⟩
        refine ⟨_, (logFieldNames_eq_ok struct).mpr ⟨counted, rfl⟩, ?_⟩
        rw [length_resolveEventFieldNames struct counted, List.length_dropLast, if_neg (by omega)]
        rfl
    · rw [if_pos selected]
      simp [selected]

theorem fieldValue_inj {f g : Fr} (same : fieldValue f = fieldValue g) : f = g :=
  hex32_inj.mp (Json.str.inj same)

/-- A list of names goes with as many of the values as there are names. -/
theorem zip_take {α : Type} (names : List String) (values : List α) :
    names.zip (values.take names.length) = names.zip values := by
  induction names generalizing values with
  | nil => rfl
  | cons first names ih =>
    cases values with
    | nil => rfl
    | cons head values => rw [List.length_cons, List.take_succ_cons, List.zip_cons_cons, ih, List.zip_cons_cons]

/-- The private decoder over the same fields binds the same names. -/
theorem get_decodePrivateEvent (packed : PackedPrivateEvent) {fields : List Fr}
    (same : packed.packedEvent.take (resolveEventFieldNames eventMetadata).length =
      fields.take (resolveEventFieldNames eventMetadata).length) (key : String) :
    (decodePrivateEvent eventMetadata packed).event.get key =
      ((collect ((resolveEventFieldNames eventMetadata).zip fields)).lookup key).map fieldValue := by
  have zipped : (resolveEventFieldNames eventMetadata).zip packed.packedEvent =
      (resolveEventFieldNames eventMetadata).zip fields := by
    rw [← zip_take, same, zip_take]
  rw [← lookup_map, ← collect_map, ← zipped]
  rfl

theorem getElem?_dropLast_inside {i : Nat} (inside : i < members.length)
    (enough : members.length < log.length) : log.dropLast[i]? = log[i]? := by
  rw [List.getElem?_dropLast, if_pos (by omega)]

/-- Where both decoders give each member its own fields, each member is in its place. -/
theorem inPlace_of_bound {packed : PackedPrivateEvent}
    (struct : eventMetadata.abiType = .struct name members)
    (bound : MembersBound eventMetadata members log packed) :
    InPlace eventMetadata members log packed.packedEvent := by
  obtain ⟨event, done, publicBinds, privateBinds, agree⟩ := bound
  obtain ⟨selected, counted, enough, rfl⟩ := (decodeLogFields_eq_ok struct).mp done
  obtain ⟨single, each⟩ := binds_iff.mp publicBinds
  obtain ⟨-, each'⟩ := binds_iff.mp privateBinds
  have names := length_resolveEventFieldNames struct counted
  refine ⟨counted, selected, enough, List.ext_getElem? fun i => ?_, single, fun k p found => ?_⟩
  · by_cases inside : i < members.length
    · rw [List.getElem?_take_of_lt inside, List.getElem?_take_of_lt inside,
        ← getElem?_dropLast_inside inside enough]
      obtain ⟨f, held, shown⟩ := each i _ (List.getElem?_eq_getElem inside)
      obtain ⟨f', held', shown'⟩ := each' i _ (List.getElem?_eq_getElem inside)
      rw [agree, shown] at shown'
      have kept : f = f' := fieldValue_inj (Option.some.inj shown')
      rw [held, held', kept]
    · rw [List.getElem?_take_eq_none (by omega), List.getElem?_take_eq_none (by omega)]
  · have inside := (List.getElem?_eq_some_iff.mp found).1
    obtain ⟨f, held, shown⟩ := each k p found
    have room : (resolveEventFieldNames eventMetadata).length ≤ log.dropLast.length := by
      rw [names, List.length_dropLast]
      omega
    obtain ⟨j, last, there⟩ := (lookup_collect room p.name f).mp shown
    have before : j < members.length := names ▸ (List.getElem?_eq_some_iff.mp last.1).1
    refine ⟨j, last, ?_⟩
    rw [← getElem?_dropLast_inside before enough, ← getElem?_dropLast_inside inside enough, there,
      held]

/-- Members in their places get their own fields from both decoders. -/
theorem bound_of_inPlace {packed : PackedPrivateEvent}
    (struct : eventMetadata.abiType = .struct name members)
    (inPlace : InPlace eventMetadata members log packed.packedEvent) :
    MembersBound eventMetadata members log packed := by
  obtain ⟨counted, selected, enough, same, single, named⟩ := inPlace
  have names := length_resolveEventFieldNames struct counted
  have room : (resolveEventFieldNames eventMetadata).length ≤ log.dropLast.length := by
    rw [names, List.length_dropLast]
    omega
  have publicBinds : ∀ (k : Nat) (p : AbiParameter), members[k]? = some p →
      ∃ f, log[k]? = some f ∧
        (collect ((resolveEventFieldNames eventMetadata).zip log.dropLast)).lookup p.name = some f := by
    intro k p found
    have inside := (List.getElem?_eq_some_iff.mp found).1
    obtain ⟨j, last, there⟩ := named k p found
    have before : j < members.length := names ▸ (List.getElem?_eq_some_iff.mp last.1).1
    refine ⟨_, List.getElem?_eq_getElem (Nat.lt_trans inside enough),
      (lookup_collect room _ _).mpr ⟨j, last, ?_⟩⟩
    rw [getElem?_dropLast_inside before enough, there,
      List.getElem?_eq_getElem (Nat.lt_trans inside enough)]
  have agree := @get_decodePrivateEvent eventMetadata packed log.dropLast (by
      rw [names, same, List.dropLast_eq_take, List.take_take, Nat.min_eq_left (by omega)])
  refine ⟨_, (decodeLogFields_eq_ok struct).mpr ⟨selected, counted, enough, rfl⟩,
    binds_iff.mpr ⟨single, fun k p found => ?_⟩, binds_iff.mpr ⟨single, fun k p found => ?_⟩, agree⟩
  · obtain ⟨f, held, shown⟩ := publicBinds k p found
    have inside := (List.getElem?_eq_some_iff.mp found).1
    exact ⟨f, (getElem?_dropLast_inside inside enough).trans held, shown⟩
  · obtain ⟨f, held, shown⟩ := publicBinds k p found
    have inside := (List.getElem?_eq_some_iff.mp found).1
    refine ⟨f, ?_, by rw [agree, shown]; rfl⟩
    rw [← List.getElem?_take_of_lt inside, same, List.getElem?_take_of_lt inside, held]

end Decoders

section Values
variable {name : String} {members : List AbiParameter} {fields : List Fr}

/-- The decoded struct has each member's value under its name, decoded at the member's offset. -/
theorem decoded_member (shaped : ∀ p ∈ members, Shaped p.typ) (fits : fields.length < 2 ^ 64)
    {map : List (String × AbiDecoded)} {last : Nat}
    (done : decodeMembers members [] fields 0 = .ok (map, last)) {k : Nat} {p : AbiParameter}
    (found : members[k]? = some p) (own : LastNamed (members.map (·.name)) p.name k) :
    ∃ value, map.lookup p.name = some value ∧
      decodeNext p.typ fields (memberOffset members k) =
        .ok (value, memberOffset members (k + 1)) := by
  obtain ⟨items, elements, rfl⟩ := decodeMembers_elements done
  have shapes : ∀ t ∈ members.map (·.typ), Shaped t := by
    intro t inside
    obtain ⟨p, listed, rfl⟩ := List.mem_map.mp inside
    exact shaped p listed
  obtain ⟨length, starts⟩ := decodeElements_starts fits shapes elements
  rw [List.length_map] at length
  have inside := (List.getElem?_eq_some_iff.mp found).1
  have offset (i : Nat) : (((members.map (·.typ)).take i).map AbiType.size).sum =
      memberOffset members i := by
    rw [← List.map_take, List.map_map]
    rfl
  have typ : (members.map (·.typ))[k]? = some p.typ := by rw [List.getElem?_map, found]; rfl
  have item := List.getElem?_eq_getElem (length.symm ▸ inside : k < items.length)
  have decoded := starts k p.typ _ typ item
  rw [offset, offset, Nat.zero_add, Nat.zero_add] at decoded
  refine ⟨_, (lookup_collect ?_ _ _).mpr ⟨k, own, item⟩, decoded⟩
  rw [List.length_map, length]

theorem decodeFromAbi_struct {map : List (String × AbiDecoded)}
    (option : (AbiType.struct name members).isOptionStruct = false)
    (done : decodeFromAbi [.struct name members] fields = .ok (.struct map)) :
    ∃ last, decodeMembers members [] fields 0 = .ok (map, last) := by
  obtain ⟨⟨value, last⟩, decoded, done⟩ := bind_eq_ok.mp done
  cases done
  refine ⟨last, ?_⟩
  cases address : (AbiType.struct name members).isAddressStruct with
  | true =>
    rw [decodeNext_address fields 0 address] at decoded
    obtain ⟨⟨fr, next⟩, -, done⟩ := bind_eq_ok.mp decoded
    dsimp only at done
    split at done <;> cases done
  | false =>
    cases bounded : (AbiType.struct name members).isBoundedVecStruct with
    | true =>
      obtain ⟨⟨p, q, rfl⟩, -⟩ := isBoundedVec_two bounded
      obtain ⟨element, maxLen, storage⟩ := storage_of_decoded fields 0 address bounded decoded
      rw [decodeNext_boundedVec fields 0 address bounded storage] at decoded
      obtain ⟨⟨items, next⟩, -, decoded⟩ := bind_eq_ok.mp decoded
      obtain ⟨⟨len, next'⟩, -, decoded⟩ := bind_eq_ok.mp decoded
      cases decoded
    | false =>
      rw [decodeNext_members fields 0 address bounded option] at decoded
      obtain ⟨⟨map', next⟩, read, done⟩ := bind_eq_ok.mp decoded
      cases done
      exact read

end Values

/-- Both decoders give every member of a struct event its own fields exactly when each member is in
its place, and then each name has the field its member's value is decoded from. -/
theorem members_bound_iff (selector : EventSelector) (name : String) (members : List AbiParameter)
    (fieldNames : List String) (log : List Fr) (packed : PackedPrivateEvent) :
    (MembersBound ⟨selector, .struct name members, fieldNames⟩ members log packed ↔
      InPlace ⟨selector, .struct name members, fieldNames⟩ members log packed.packedEvent) ∧
    ∀ event, MembersBound ⟨selector, .struct name members, fieldNames⟩ members log packed →
      decodeLogFields log ⟨selector, .struct name members, fieldNames⟩ = .ok event →
      ∀ map, decodeFromAbi [.struct name members] log.dropLast = .ok (.struct map) →
        (AbiType.struct name members).isOptionStruct = false → (∀ p ∈ members, Shaped p.typ) →
        log.length < 2 ^ 64 → ∀ (k : Nat) (p : AbiParameter), members[k]? = some p →
          LastNamed (members.map (·.name)) p.name k →
          ∃ f value, event.lookup p.name = some f ∧ map.lookup p.name = some value ∧
            decodeFromAbi [p.typ] [f] = .ok value := by
  refine ⟨⟨inPlace_of_bound rfl, bound_of_inPlace rfl⟩, ?_⟩
  rintro event ⟨event', done', binds, -, -⟩ done map decoded option shaped fits k p found own
  rw [done] at done'
  cases done'
  obtain ⟨single, each⟩ := binds_iff.mp binds
  obtain ⟨f, held, bound⟩ := each k p found
  have inside := (List.getElem?_eq_some_iff.mp found).1
  have short : log.dropLast.length < 2 ^ 64 := by
    rw [List.length_dropLast]
    omega
  obtain ⟨last, read⟩ := decodeFromAbi_struct option decoded
  obtain ⟨value, under, decoded⟩ := decoded_member shaped short read found own
  rw [memberOffset_single single (Nat.le_of_lt inside), memberOffset_single single inside] at decoded
  refine ⟨f, value, bound, under, ?_⟩
  have one : (log.dropLast.drop k).take 1 = [f] := by
    rw [List.take_one, List.head?_drop, held]
    rfl
  rw [← one]
  exact decodeFromAbi_own decoded

/-- Two amounts before the owner. -/
private def mintedMembers : List AbiParameter :=
  [⟨"amounts", .array .field 2, none⟩, ⟨"owner", .field, none⟩]

private def mintedEvent : PackedPrivateEvent :=
  ⟨[7, 8, 9], ⟨0⟩, 1, "", ⟨5⟩⟩

/-- The owner of this event is 9, and both decoders name the second amount as the owner. -/
theorem owner_gets_amount :
    encodeValue (.struct "Minted" mintedMembers)
        (.struct [("amounts", .array [.field 7, .field 8]), ("owner", .field 9)]) =
      .ok [7, 8, 9] ∧
    decodeFromAbi [.struct "Minted" mintedMembers] [7, 8, 9] =
      .ok (.struct [("amounts", .array [.field 7, .field 8]), ("owner", .field 9)]) ∧
    decodeLogFields [7, 8, 9, 5] ⟨⟨5⟩, .struct "Minted" mintedMembers, []⟩ =
      .ok [("amounts", 7), ("owner", 8)] ∧
    ((decodePrivateEvent ⟨⟨5⟩, .struct "Minted" mintedMembers, []⟩ mintedEvent).event.get
      "owner") = some (fieldValue 8) ∧
    ¬ MembersBound ⟨⟨5⟩, .struct "Minted" mintedMembers, []⟩ mintedMembers [7, 8, 9, 5]
      mintedEvent := by
  refine ⟨rfl, rfl, rfl, rfl, ?_⟩
  rintro ⟨event, -, binds, -, -⟩
  have one := binds.single ⟨"amounts", .array .field 2, none⟩ List.mem_cons_self
  simp [AbiType.size] at one

end EventMembers
end AztecPxe
