import Colloquy.Proofs.Message.Conformance
import Colloquy.Proofs.Message.Nesting
import Colloquy.Proofs.Negotiation.Terms

/-!
# Acts and messages

Every act is performed by one message, which is read as this act; every message
of the negotiation performs an act.  The fields of an act are of their types as
they are, so building takes them unchanged.  In the other direction the type of
each field leaves one form for its value, and the field is read from this form.
-/

namespace Colloquy

/-- Two messages that differ in nothing but the order of their dictionaries. -/
structure Message.Alike (message other : Message) : Prop where
  protocol : message.protocol = other.protocol
  routing : message.routing = other.routing
  performative : message.performative = other.performative
  fields : Value.Alike (.struct message.fields) (.struct other.fields)

namespace Negotiation

open Message

variable {message : Message}

theorem schema?_cases {performative : String} {schema : Schema}
    (hschema : specification.schema? performative = some schema) :
    performative = "cfp" ∧ schema.entries = [("query", queryType)]
      ∨ performative = "propose" ∧ schema.entries
        = [("price", .scalar .float), ("items", .list (.scalar .str)),
          ("conditions", conditionsType)]
      ∨ performative = "accept" ∧ schema.entries = []
      ∨ performative = "decline"
        ∧ schema.entries = [("reason", .optional (.scalar .str))]
      ∨ performative = "match_accept" ∧ schema.entries = [] := by
  have hentry : (performative, schema) ∈
      [("cfp", OrderedMap.ofList [("query", queryType)]),
        ("propose", .ofList
          [("price", .scalar .float), ("items", .list (.scalar .str)),
            ("conditions", conditionsType)]),
        ("accept", ∅),
        ("decline", .ofList [("reason", .optional (.scalar .str))]),
        ("match_accept", ∅)] := OrderedMap.get?_eq_some_iff.mp hschema
  simp only [List.mem_cons, Prod.mk.injEq, List.not_mem_nil, or_false] at hentry
  rcases hentry with
    ⟨rfl, rfl⟩ | ⟨rfl, rfl⟩ | ⟨rfl, rfl⟩ | ⟨rfl, rfl⟩ | ⟨rfl, rfl⟩
  · exact .inl ⟨rfl, rfl⟩
  · exact .inr (.inl ⟨rfl, rfl⟩)
  · exact .inr (.inr (.inl ⟨rfl, rfl⟩))
  · exact .inr (.inr (.inr (.inl ⟨rfl, rfl⟩)))
  · exact .inr (.inr (.inr (.inr ⟨rfl, rfl⟩)))

theorem isShallow_specification : specification.IsShallow := by
  intro performative schema hschema
  rcases schema?_cases hschema with
    ⟨-, heq⟩ | ⟨-, heq⟩ | ⟨-, heq⟩ | ⟨-, heq⟩ | ⟨-, heq⟩ <;>
    rw [heq] <;> decide +kernel

namespace Act

/-! ## From acts to messages -/

theorem isProper_toFields (act : Act) : ∀ field ∈ act.toFields,
    field.2.IsProper := by
  cases act with
  | cfp query =>
    exact List.forall_mem_singleton.mpr query.isProper_toValue
  | propose price items conditions =>
    have hitems : (Value.list (items.map .str)).IsProper := by
      refine Value.areProper_iff.mpr fun item hmem => ?_
      obtain ⟨text, -, rfl⟩ := List.mem_map.mp hmem
      exact trivial
    simp only [toFields, List.forall_mem_cons]
    exact ⟨trivial, hitems, conditions.isProper_toValue, by simp⟩
  | accept => simp [toFields]
  | decline reason =>
    refine List.forall_mem_singleton.mpr ?_
    cases reason <;> exact trivial
  | matchAccept => simp [toFields]

/-- The fields of an act are those of its performative. -/
theorem exists_schema (act : Act) :
    ∃ schema, specification.schema? act.performative = some schema
      ∧ List.Forall₂ IsFieldOf schema.entries act.toFields := by
  cases act with
  | cfp query => exact ⟨_, rfl, .cons ⟨rfl, rfl, query.holds_toValue⟩ .nil⟩
  | propose price items conditions =>
    have hprice : IsFieldOf ("price", .scalar .float) ("price", .float price) :=
      ⟨rfl, rfl, .scalar rfl⟩
    have hitems : IsFieldOf ("items", .list (.scalar .str))
        ("items", .list (items.map .str)) :=
      ⟨rfl, rfl, holds_texts_iff.mpr ⟨items, rfl⟩⟩
    have hconditions : IsFieldOf ("conditions", conditionsType)
        ("conditions", conditions.toValue) :=
      ⟨rfl, by cases conditions <;> rfl, conditions.holds_toValue⟩
    exact ⟨_, rfl, .cons hprice (.cons hitems (.cons hconditions .nil))⟩
  | accept => exact ⟨_, rfl, .nil⟩
  | decline reason =>
    have hreason : IsFieldOf ("reason", .optional (.scalar .str))
        ("reason", .optional (reason.map .str)) :=
      ⟨rfl, rfl, holds_optionalText_iff.mpr ⟨reason, rfl⟩⟩
    exact ⟨_, rfl, .cons hreason .nil⟩
  | matchAccept => exact ⟨_, rfl, .nil⟩

/-- The message that performs an act at some place of a dialogue. -/
def toMessage (act : Act) (routing : Routing) : Message :=
  ⟨specification.id, routing, act.performative, act.toFields⟩

theorem build_toFields (act : Act) (routing : Routing) :
    build specification act.performative act.toFields routing
      = .ok (act.toMessage routing) := by
  obtain ⟨schema, hschema, hfields⟩ := act.exists_schema
  exact build_of_forall₂ hschema hfields

theorem ofMessage_toMessage (act : Act) (routing : Routing) :
    ofMessage (act.toMessage routing) = .ok act := by
  cases act with
  | cfp query =>
    simp [ofMessage, toMessage, performative, toFields, readField, requireField,
      field?, OrderedMap.lookup, query.ofValue?_toValue, bind, Except.bind]
  | propose price items conditions =>
    simp [ofMessage, toMessage, performative, toFields, readField, requireField,
      floatField, textsField, field?, OrderedMap.lookup, Value.asFloat?,
      readTexts?_map, conditions.ofValue?_toValue, bind, Except.bind]
  | accept => rfl
  | decline reason =>
    simp [ofMessage, toMessage, performative, toFields, readField, requireField,
      optionalTextField, field?, OrderedMap.lookup, readOptionalText?_map, bind,
      Except.bind]
  | matchAccept => rfl

/-- An act arrives as it was sent, whatever the limit that its payload keeps. -/
theorem decode_toMessage (act : Act) {routing : Routing} {limit : Nat}
    (hinitiator : routing.reference.initiator ≠ unassigned)
    (hid : startingMessageId ≤ routing.messageId)
    (hsize : (act.toMessage routing).encode.length < Bytes.capacity 4)
    (hlimit : (act.toMessage routing).encode.length ≤ limit) :
    decode specification limit (act.toMessage routing).encode
      = .ok (act.toMessage routing) := by
  have hbuild := act.build_toFields routing
  have hshallow := isShallow_of_build load_source isShallow_specification hbuild
  have hread := Envelope.readExact_write _ hshallow.depth_le hsize
  have hopened := ofEnvelope_toEnvelope load_source (by decide +kernel)
    act.isProper_toFields hbuild hinitiator hid
  exact decode_eq_ok_iff.mpr ⟨hlimit, _, hread, hopened⟩

/-! ## From messages to acts -/

theorem exists_of_forall₂_cons {name : String} {type : FieldType}
    {declared : List (String × FieldType)} {fields : List (String × Value)}
    (hfields : List.Forall₂ IsFieldOf ((name, type) :: declared) fields) :
    ∃ value rest, fields = (name, value) :: rest ∧ type.Holds value
      ∧ List.Forall₂ IsFieldOf declared rest := by
  cases hfields with
  | @cons _ field _ rest hfield hrest =>
    obtain ⟨found, value⟩ := field
    obtain ⟨rfl, -, hholds⟩ := hfield
    exact ⟨value, rest, rfl, hholds, hrest⟩

/-- A message with the fields of its performative performs an act, whose fields
differ from those of the message in the order of dictionaries only. -/
theorem exists_of_fields {schema : Schema}
    (hschema : specification.schema? message.performative = some schema)
    (hfields : List.Forall₂ IsFieldOf schema.entries message.fields)
    (hproper : ∀ field ∈ message.fields, field.2.IsProper) :
    ∃ act, ofMessage message = .ok act
      ∧ act.performative = message.performative
      ∧ Value.Alike (.struct message.fields) (.struct act.toFields) := by
  obtain ⟨protocol, routing, performative, fields⟩ := message
  dsimp only at hschema hfields hproper ⊢
  -- By performative: the types of its fields leave one form for each value.
  rcases schema?_cases hschema with
    ⟨rfl, heq⟩ | ⟨rfl, heq⟩ | ⟨rfl, heq⟩ | ⟨rfl, heq⟩ | ⟨rfl, heq⟩ <;>
    rw [heq] at hfields
  · obtain ⟨first, _, rfl, hquery, ⟨⟩⟩ := exists_of_forall₂_cons hfields
    obtain ⟨query, hread, halike⟩ :=
      Query.exists_of_holds hquery (hproper _ List.mem_cons_self)
    refine ⟨cfp query, ?_, rfl, .cons halike (.refl _)⟩
    simp [ofMessage, readField, requireField, field?, OrderedMap.lookup, hread,
      bind, Except.bind]
  · obtain ⟨first, _, rfl, hprice, hrest⟩ := exists_of_forall₂_cons hfields
    obtain ⟨second, _, rfl, hitems, hlast⟩ := exists_of_forall₂_cons hrest
    obtain ⟨third, _, rfl, hconditions, ⟨⟩⟩ := exists_of_forall₂_cons hlast
    obtain ⟨price, rfl⟩ := holds_float_iff.mp hprice
    obtain ⟨items, rfl⟩ := holds_texts_iff.mp hitems
    obtain ⟨conditions, hread, halike⟩ :=
      Conditions.exists_of_holds hconditions (hproper ("conditions", third) (by simp))
    refine ⟨propose price items conditions, ?_, rfl,
      .cons (.refl _) (.cons (.refl _) (.cons halike (.refl _)))⟩
    simp [ofMessage, readField, requireField, floatField, textsField, field?,
      OrderedMap.lookup, Value.asFloat?, readTexts?_map, hread, bind,
      Except.bind]
  · cases hfields
    exact ⟨accept, rfl, rfl, .refl _⟩
  · obtain ⟨first, _, rfl, hreason, ⟨⟩⟩ := exists_of_forall₂_cons hfields
    obtain ⟨reason, rfl⟩ := holds_optionalText_iff.mp hreason
    refine ⟨decline reason, ?_, rfl, .refl _⟩
    simp [ofMessage, readField, requireField, optionalTextField, field?,
      OrderedMap.lookup, readOptionalText?_map, bind, Except.bind]
  · cases hfields
    exact ⟨matchAccept, rfl, rfl, .refl _⟩

/-- So does every message that was built. -/
theorem exists_of_build {performative : String} {given : List (String × Value)}
    {routing : Routing} (hgiven : ∀ field ∈ given, field.2.IsProper)
    (hbuild : build specification performative given routing = .ok message) :
    ∃ act rebuilt, ofMessage message = .ok act
      ∧ act.performative = message.performative
      ∧ build specification act.performative act.toFields message.routing
        = .ok rebuilt
      ∧ message.Alike rebuilt := by
  obtain ⟨schema, hschema, hfields⟩ := exists_forall₂_of_build hbuild
  obtain ⟨act, hread, hperformative, halike⟩ :=
    exists_of_fields hschema hfields (isProper_of_build hgiven hbuild)
  exact ⟨act, _, hread, hperformative, act.build_toFields message.routing,
    protocol_of_build hbuild, rfl, hperformative.symm, halike⟩

end Act

/-- Acts and messages of the negotiation correspond to each other: an act is
sent, arrives and is read as it was; a message, whether built or decoded, is read
as an act that makes the same message again, the order of dictionaries apart. -/
theorem acts_correspond :
    (∀ (act : Act) (routing : Routing), ∃ message,
      build specification act.performative act.toFields routing = .ok message
        ∧ Act.ofMessage message = .ok act
        ∧ (routing.reference.initiator ≠ unassigned →
          startingMessageId ≤ routing.messageId →
          message.encode.length < Bytes.capacity 4 →
          ∀ limit, message.encode.length ≤ limit →
          decode specification limit message.encode = .ok message))
      ∧ ∀ message,
        ((∃ performative given routing, (∀ field ∈ given, field.2.IsProper)
            ∧ build specification performative given routing = .ok message)
          ∨ ∃ limit payload,
            decode specification limit payload = .ok message) →
        ∃ act rebuilt, Act.ofMessage message = .ok act
          ∧ act.performative = message.performative
          ∧ build specification act.performative act.toFields message.routing
            = .ok rebuilt
          ∧ message.Alike rebuilt := by
  refine ⟨fun act routing => ⟨_, act.build_toFields routing,
    act.ofMessage_toMessage routing, ?_⟩, fun message horigin => ?_⟩
  · intro hinitiator hid hsize limit hlimit
    exact act.decode_toMessage hinitiator hid hsize hlimit
  · rcases horigin with
      ⟨performative, given, routing, hgiven, hbuild⟩ | ⟨limit, payload, hdecode⟩
    · exact Act.exists_of_build hgiven hbuild
    · obtain ⟨hbuild, hproper⟩ := build_fields_of_decode load_source hdecode
      exact Act.exists_of_build hproper hbuild

/-- An offer of apples, with a weight and an age for its terms. -/
def apples : Act :=
  .propose .nan ["apples"] (.terms (.ofList [("weight", 2), ("age", 1)]))

/-- The offer with its terms in another order than that of their names. -/
def weightFirst : Message :=
  ⟨specification.id, ⟨⟨"1", "2"⟩, 2, 1⟩, "propose",
    [("price", .float .nan), ("items", .list [.str "apples"]),
      ("conditions", .dict [(.str "weight", .int 2), (.str "age", .int 1)])]⟩

theorem acts_correspond_apples :
    (∃ received, decode specification maxMessageSize
          (apples.toMessage weightFirst.routing).encode = .ok received
        ∧ Act.ofMessage received = .ok apples)
      ∧ ∃ rebuilt, Act.ofMessage weightFirst = .ok apples
        ∧ build specification "propose" apples.toFields weightFirst.routing
          = .ok rebuilt
        ∧ weightFirst.Alike rebuilt := by
  obtain ⟨hacts, hmessages⟩ := acts_correspond
  constructor
  · obtain ⟨message, hbuild, hread, harrives⟩ :=
      hacts apples weightFirst.routing
    cases hbuild.symm.trans (apples.build_toFields weightFirst.routing)
    have hreceived := harrives (by decide) (by decide) (by decide +kernel)
      maxMessageSize (by decide +kernel)
    exact ⟨_, hreceived, hread⟩
  · have hproper : ∀ field ∈ weightFirst.fields, field.2.IsProper := by
      simp [weightFirst, Value.IsProper, Value.AreProperEntries,
        Value.AreProper]
    have hbuild : build specification "propose" weightFirst.fields
        weightFirst.routing = .ok weightFirst := rfl
    obtain ⟨act, rebuilt, hread, -, hrebuild, halike⟩ :=
      hmessages weightFirst (.inl ⟨_, _, _, hproper, hbuild⟩)
    have hact : Act.ofMessage weightFirst = .ok apples := rfl
    cases hact.symm.trans hread
    exact ⟨rebuilt, hact, hrebuild, halike⟩

end Negotiation

end Colloquy
