import Colloquy.Proofs.Message.Nesting
import Colloquy.Proofs.Registry.Index

/-!
# What a registry sends can be read

A registry sends what it has built from the fields it was given, under a
reference with the initiator's half and at a place of its own.  So whoever
receives it can read it, as long as no field is nested too deeply.
-/

namespace Colloquy

/-- An accepted message has an id that a payload may have. -/
theorem Dialogue.startingMessageId_le_of_check {specification : Specification}
    {dialogue : Dialogue} {message : Message} {sender : Role}
    (hcheck : dialogue.check specification message sender = .ok ()) :
    startingMessageId ≤ message.routing.messageId := by
  have hposition : (message.routing.messageId.toNat,
      message.routing.target.toNat) = dialogue.nextPosition := by
    simp only [check] at hcheck
    split at hcheck
    · cases hcheck
    · split at hcheck
      · cases hcheck
      · rename_i hposition
        exact Decidable.not_not.mp hposition
  have hid : 1 ≤ dialogue.nextPosition.1 := by
    rw [nextPosition]
    split
    · exact Nat.le_add_left 1 _
    · exact Nat.le_refl 1
  rw [← hposition] at hid
  exact UInt64.le_iff_toNat_le.mpr hid

namespace Registry

/-- The fields that an operation is given for a message. -/
def Operation.given : Operation → List (String × Value)
  | .openWith _ _ fields _ => fields
  | .send _ _ fields _ _ => fields
  | .reply _ _ fields => fields
  | _ => []

variable {registry : Registry}

theorem isBuilt_of_openWith {supply : HalfSupply} {performative : String}
    {fields : List (String × Value)} {opponent : Address} {label : Label}
    {message : Message} {after : Registry}
    (hopen : registry.openWith supply performative fields opponent
      = (.ok (label, message), after)) :
    message.IsBuilt registry.specification fields := by
  obtain ⟨-, base, dialogue, -, hlabel, hbuild, happend, -⟩ :=
    openWith_eq_ok hopen
  have hrouting := Message.routing_of_build hbuild
  refine ⟨⟨performative, hrouting ▸ hbuild⟩, ?_, ?_⟩
  · rw [hrouting, hlabel]
    exact supply.next_ne_unassigned _
  · exact Dialogue.startingMessageId_le_of_check (Dialogue.check_of_append happend)

theorem isBuilt_of_reply (hindexed : registry.Indexed) {label : Label}
    {performative : String} {fields : List (String × Value)} {message : Message}
    {after : Registry}
    (hreply : registry.reply label performative fields = (.ok message, after)) :
    message.IsBuilt registry.specification fields := by
  obtain ⟨key, dialogue, next, hfound, hbuild, happend, -⟩ := reply_eq_ok hreply
  have hheld := ((find?_eq_some_iff hindexed).mp hfound).1
  have hrouting := Message.routing_of_build hbuild
  refine ⟨⟨performative, hrouting ▸ hbuild⟩, ?_, ?_⟩
  · rw [hrouting]
    change dialogue.label.reference.initiator ≠ unassigned
    rw [hindexed.label_eq hheld]
    exact hindexed.initiator_ne hheld
  · exact Dialogue.startingMessageId_le_of_check (Dialogue.check_of_append happend)

/-- Whatever a registry sends was built from the fields it was given. -/
theorem isBuilt_of_sent (hindexed : registry.Indexed) {operation : Operation}
    {opponent : Address} {message : Message}
    (hsent : operation.event (registry.perform operation).1
      = .sent opponent message) :
    message.IsBuilt registry.specification operation.given := by
  cases operation with
  | openWith supply performative fields other =>
    rw [perform] at hsent
    rcases hopen : registry.openWith supply performative fields other
      with ⟨cause | ⟨label, found⟩, after⟩
    · rw [hopen] at hsent
      cases hsent
    · rw [hopen] at hsent
      cases hsent
      exact isBuilt_of_openWith hopen
  | send supply performative fields other label =>
    rw [perform] at hsent
    rcases hsend : registry.send supply performative fields other label
      with ⟨cause | found, after⟩
    · rw [hsend] at hsent
      cases hsent
    · rw [hsend] at hsent
      cases hsent
      rcases send_cases hsend with
        ⟨-, opening, hopen, hresult⟩ | ⟨named, -, ⟨-, hreply⟩ | hfail⟩
      · rcases opening with cause | ⟨label, found⟩
        · cases hresult
        · cases hresult
          exact isBuilt_of_openWith hopen
      · exact isBuilt_of_reply hindexed hreply
      · cases hfail
  | reply label performative fields =>
    rw [perform] at hsent
    rcases hreply : registry.reply label performative fields
      with ⟨cause | found, after⟩
    · rw [hreply] at hsent
      cases hsent
    · rw [hreply] at hsent
      cases hsent
      exact isBuilt_of_reply hindexed hreply
  | _ =>
    -- What is asked otherwise sends nothing, whatever the answer.
    generalize (registry.perform _).1 = result at hsent
    rcases result with _ | _ | _ | _ | _ | _ | _ <;> cases hsent

/-- A message that was built is read by whoever takes payloads of its size,
unless a field is nested too deeply, and so is what a registry sends. -/
theorem built_is_read {source : Source} {specification : Specification}
    (hload : Specification.load source = .ok specification) :
    (∀ given (message : Message) limit,
      (∀ field ∈ given, field.2.IsProper) →
      message.IsBuilt specification given →
      message.encode.length < Bytes.capacity 4 →
      message.encode.length ≤ limit →
      message.IsReadUnlessDeep specification limit)
    ∧ ∀ address limits operations (operation : Operation) opponent
        (message : Message) limit,
      (∀ earlier ∈ operations, earlier.IsAdmissible) →
      (∀ field ∈ operation.given, field.2.IsProper) →
      operation.event
        (((empty specification address limits).run operations).perform
          operation).1 = .sent opponent message →
      message.encode.length < Bytes.capacity 4 →
      message.encode.length ≤ limit →
      message.IsReadUnlessDeep specification limit := by
  constructor
  · intro given message limit hgiven hbuilt hsize hlimit
    exact hbuilt.isReadUnlessDeep hload hgiven hsize hlimit
  · intro address limits operations operation opponent message limit
      hadmissible hgiven hsent hsize hlimit
    have hindexed :=
      (indexed_empty specification address limits).run operations hadmissible
    have hbuilt := isBuilt_of_sent hindexed hsent
    rw [specification_run] at hbuilt
    exact hbuilt.isReadUnlessDeep hload hgiven hsize hlimit

/-- A call for proposals is read by its addressee. -/
theorem built_is_read_call :
    let query := (Negotiation.Act.cfp ⟨"books", {}⟩).toFields
    let call : Message := ⟨Negotiation.specification.id,
      .opening (.opened "a"), "cfp", query⟩
    let operation : Operation :=
      .openWith (.preferring "a" Nat.one_pos) "cfp" query ⟨"bob"⟩
    operation.event ((empty Negotiation.specification ⟨"alice"⟩ {}).perform
        operation).1 = .sent ⟨"bob"⟩ call
      ∧ ∃ found, Message.decode Negotiation.specification maxMessageSize
          call.encode = .ok found
        ∧ found.routing = call.routing ∧ found.performative = "cfp" := by
  intro query call operation
  have hsent : operation.event ((empty Negotiation.specification ⟨"alice"⟩
      {}).perform operation).1 = .sent ⟨"bob"⟩ call := rfl
  have hgiven : ∀ field ∈ operation.given, field.2.IsProper := by
    intro field hmem
    cases List.mem_singleton.mp hmem
    exact ⟨trivial, ⟨List.nodup_nil, trivial⟩, trivial⟩
  have hread := (built_is_read Negotiation.load_source).2 ⟨"alice"⟩ {} []
    operation ⟨"bob"⟩ call maxMessageSize (List.forall_mem_nil _) hgiven hsent
    (by decide +kernel) (by decide +kernel)
  have hshallow : ∀ field ∈ call.fields,
      field.2.toWire.depth ≤ maxNestingDepth := by decide +kernel
  exact ⟨hsent, hread.decode_of_isShallow hshallow⟩

/-! ## Nested too deeply -/

/-- Optionals in optionals, as many as are asked for. -/
def tower : Nat → FieldType
  | 0 => .scalar .int
  | levels + 1 => .optional (tower levels)

def towerText : Nat → List Char
  | 0 => "int".toList
  | levels + 1 => "optional[".toList ++ towerText levels ++ [']']

/-- A value that is present on every level. -/
def towerValue : Nat → Value
  | 0 => .int 0
  | levels + 1 => .present (towerValue levels)

/-- The only thing to say has a field that goes one level deeper than a
reader does. -/
def towerSource : Source where
  name := "tower"
  author := "parley"
  version := "1.0.0"
  description := none
  speechActs := .ofList [("store", .ofList
    [("content", String.ofList (towerText (maxNestingDepth + 1)))])]
  customTypes := ∅
  reply := .ofList [("store", [])]
  roles := ["caller", "callee"]
  endStates := []
  initiation := some ["store"]
  speakers := ∅
  terminalOutcomes := ∅

def towerSpecification : Specification where
  id := ⟨"parley", "tower", "1.0.0"⟩
  description := none
  speechActs := .ofList
    [("store", .ofList [("content", tower (maxNestingDepth + 1))])]
  reply := towerSource.reply
  initiator := "caller"
  responder := "callee"
  endStates := []
  initiation := ["store"]
  speakers := ∅
  outcomes := ∅

theorem loadField_tower :
    Specification.loadField ∅ "store" Specification.isContentName "content"
        (String.ofList (towerText (maxNestingDepth + 1)))
      = .ok (tower (maxNestingDepth + 1)) := by
  have hname : Specification.isContentName "content" = true := by decide +kernel
  rw [Specification.loadField, if_pos hname, Specification.parseType,
    FieldType.parse, String.toList_ofList, mapError_eq_ok_iff]
  decide +kernel

theorem loadSchema_singleton {types : CustomTypes}
    {performative name text : String} {type : FieldType}
    (hidentifier : Text.isIdentifier performative = true)
    (hfield : Specification.loadField types performative
      Specification.isContentName name text = .ok type) :
    Specification.loadSchema types performative (.ofList [(name, text)])
      = .ok (.ofList [(name, type)]) := by
  rw [Specification.loadSchema, hidentifier]
  exact (OrderedMap.traverse_eq_ok_iff _).mpr
    ((OrderedMap.traverseEntries_cons_eq_ok_iff _).mpr
      ⟨type, [], hfield, rfl, rfl⟩)

theorem load_tower :
    Specification.load towerSource = .ok towerSpecification := by
  refine Specification.load_eq_ok_iff.mpr ⟨∅, ?_⟩
  exact {
    id := by decide +kernel
    customTypes := rfl
    speechActs := (OrderedMap.traverse_eq_ok_iff _).mpr
      ((OrderedMap.traverseEntries_cons_eq_ok_iff _).mpr
        ⟨_, [], loadSchema_singleton (by decide +kernel) loadField_tower,
          rfl, rfl⟩)
    replyTable := by decide +kernel
    roles := by decide +kernel
    distinctEndStates := rfl
    initiation := by decide +kernel
    speakers := rfl
    outcomes := rfl
    description := rfl
    reply := rfl
    endStates := rfl }

theorem validate_tower (levels : Nat) :
    (tower levels).validate (towerValue levels) = .ok () := by
  induction levels with
  | zero => rfl
  | succ levels ih =>
    rw [tower, towerValue, Value.present, FieldType.validate, ih]

theorem isProper_towerValue (levels : Nat) : (towerValue levels).IsProper := by
  induction levels with
  | zero => trivial
  | succ levels ih => exact ih

theorem depth_towerValue (levels : Nat) :
    (towerValue levels).toWire.depth = levels := by
  induction levels with
  | zero => rfl
  | succ levels ih =>
    rw [towerValue, Value.present, Value.toWire, Wire.depth]
    simp only [Value.toWireOption, Wire.depthItems, Wire.depth, ih, Nat.max_zero,
      Nat.zero_max]

def towerFields : List (String × Value) :=
  [("content", towerValue (maxNestingDepth + 1))]

def towerMessage : Message where
  protocol := towerSpecification.id
  routing := .opening (.opened "a")
  performative := "store"
  fields := towerFields

theorem build_tower :
    Message.build towerSpecification "store" towerFields towerMessage.routing
      = .ok towerMessage := by
  have hfield : Message.buildField "store" towerFields "content"
      (tower (maxNestingDepth + 1))
        = .ok (towerValue (maxNestingDepth + 1)) :=
    Message.buildField_eq_ok_iff.mpr ⟨rfl, validate_tower _⟩
  exact Message.build_eq_ok_iff.mpr ⟨_, .ofList towerFields, rfl,
    by decide +kernel, (OrderedMap.traverse_eq_ok_iff _).mpr
      ((OrderedMap.traverseEntries_cons_eq_ok_iff _).mpr
        ⟨_, [], hfield, rfl, rfl⟩), rfl⟩

theorem not_isShallow_tower : ¬towerMessage.IsShallow := by
  intro hshallow
  have hdepth := hshallow _ (List.mem_singleton_self _)
  rw [depth_towerValue] at hdepth
  exact Nat.not_succ_le_self maxNestingDepth hdepth

/-- What is sent may be nested too deeply for whoever receives it. -/
theorem not_decode_tower :
    let operation : Operation :=
      .openWith (.preferring "a" Nat.one_pos) "store" towerFields ⟨"bob"⟩
    Specification.load towerSource = .ok towerSpecification
      ∧ (∀ field ∈ towerFields, field.2.IsProper)
      ∧ towerMessage.IsBuilt towerSpecification towerFields
      ∧ operation.event ((empty towerSpecification ⟨"alice"⟩ {}).perform
          operation).1 = .sent ⟨"bob"⟩ towerMessage
      ∧ towerMessage.encode.length ≤ maxMessageSize
      ∧ ∀ found, Message.decode towerSpecification maxMessageSize
          towerMessage.encode ≠ .ok found := by
  intro operation
  have hsize : towerMessage.encode.length ≤ maxMessageSize := by decide +kernel
  have hproper : ∀ field ∈ towerFields, field.2.IsProper :=
    List.forall_mem_singleton.mpr (isProper_towerValue _)
  have hbuilt : towerMessage.IsBuilt towerSpecification towerFields :=
    ⟨⟨"store", build_tower⟩, by decide, by decide⟩
  refine ⟨load_tower, hproper, hbuilt, rfl, hsize, ?_⟩
  intro found hdecode
  rw [Message.decode_of_not_isShallow (Nat.lt_of_le_of_lt hsize (by decide))
    hsize not_isShallow_tower] at hdecode
  cases hdecode

end Registry

end Colloquy
