import Colloquy.Proofs.FieldType.Canonical
import Colloquy.Proofs.Message.RoundTrip

/-!
# Decoded messages can be built

Building and decoding check a message each in its own way.  Decoding asks for
the fields of the schema in any order, each of them readable at its type, and
this is all it asks of a body (`Fills`).  What was read that way belongs to its
type and needs no completion, so building accepts it as it is.
-/

namespace Colloquy.Message

variable {performative : String} {schema : Schema} {body : List (String × Wire)}
  {fields : OrderedMap String Value}

/-! ## Bodies that fill a schema -/

/-- Every field of the schema stands in the body once, and nothing else does;
the values are read at the types of the fields and listed in their order. -/
structure Fills (schema : Schema) (body : List (String × Wire))
    (fields : OrderedMap String Value) : Prop where
  names : (body.map Prod.fst).Perm schema.keys
  keys : fields.keys = schema.keys
  read : ∀ name type, schema.get? name = some type →
    ∃ wire value, (name, wire) ∈ body ∧ type.interpret wire = .ok value
      ∧ fields.get? name = some value

theorem Fills.of_perm {shuffled : List (String × Wire)}
    (hfills : Fills schema body fields) (hperm : shuffled.Perm body) :
    Fills schema shuffled fields where
  names := (hperm.map Prod.fst).trans hfills.names
  keys := hfills.keys
  read name type hfield := by
    obtain ⟨wire, value, hmem, hread⟩ := hfills.read name type hfield
    exact ⟨wire, value, hperm.mem_iff.mpr hmem, hread⟩

theorem collectBody_eq_ok_iff {seen collected : OrderedMap String Wire} :
    collectBody performative schema seen body = .ok collected ↔
      (∀ field ∈ body, schema.contains field.1 = true)
        ∧ collected.entries = seen.entries ++ body := by
  constructor
  · intro hcollect
    induction body generalizing seen with
    | nil =>
      cases hcollect
      simp
    | cons field rest ih =>
      obtain ⟨name, wire⟩ := field
      rw [collectBody] at hcollect
      split at hcollect
      · cases hcollect
      · rename_i hdeclared
        split at hcollect
        · cases hcollect
        · rename_i hnew
          obtain ⟨hrest, hentries⟩ := ih hcollect
          rw [OrderedMap.contains_iff_mem] at hnew
          rw [OrderedMap.entries_insertNew_of_not_mem wire hnew,
            List.append_assoc, List.singleton_append] at hentries
          refine ⟨List.forall_mem_cons.mpr ⟨?_, hrest⟩, hentries⟩
          simpa using hdeclared
  · rintro ⟨hdeclared, hentries⟩
    obtain ⟨found, hfound, hall⟩ := collectBody_eq_ok hdeclared
      (hentries ▸ collected.nodup_keys)
    rw [hfound, OrderedMap.ext_entries (hall.trans hentries.symm)]

theorem interpretField_eq_ok_iff {collected : OrderedMap String Wire}
    {name : String} {type : FieldType} {value : Value} :
    interpretField performative collected name type = .ok value ↔
      ∃ wire, (name, wire) ∈ collected.entries
        ∧ type.interpret wire = .ok value := by
  simp only [← OrderedMap.get?_eq_some_iff]
  rw [interpretField]
  cases collected.get? name <;> simp [mapError_eq_ok_iff]

/-- A body is read if it fills the schema. -/
theorem fills_iff :
    (∃ collected, collectBody performative schema ∅ body = .ok collected
      ∧ schema.traverse (interpretField performative collected) = .ok fields) ↔
      Fills schema body fields := by
  simp only [collectBody_eq_ok_iff, OrderedMap.traverse_eq_ok_iff_get?,
    interpretField_eq_ok_iff]
  constructor
  · rintro ⟨collected, ⟨hdeclared, hentries⟩, hkeys, hread⟩
    have hbody : collected.entries = body := hentries
    subst hbody
    refine ⟨?_, hkeys, fun name type hfield => ?_⟩
    · refine (List.perm_ext_iff_of_nodup collected.nodup_keys
        schema.nodup_keys).mpr fun name => ⟨fun hmem => ?_, fun hmem => ?_⟩
      · obtain ⟨field, hfield, rfl⟩ := List.mem_map.mp hmem
        exact OrderedMap.contains_iff_mem.mp (hdeclared field hfield)
      · obtain ⟨type, htype⟩ := OrderedMap.mem_keys_iff.mp hmem
        obtain ⟨value, ⟨wire, hwire, -⟩, -⟩ := hread name type htype
        exact List.mem_map_of_mem hwire
    · obtain ⟨value, ⟨wire, hwire, hvalue⟩, hfound⟩ := hread name type hfield
      exact ⟨wire, value, hwire, hvalue, hfound⟩
  · intro hfills
    have hnodup := hfills.names.nodup_iff.mpr schema.nodup_keys
    refine ⟨⟨body, hnodup⟩, ⟨fun field hmem => ?_, rfl⟩, hfills.keys,
      fun name type hfield => ?_⟩
    · rw [OrderedMap.contains_iff_mem, ← hfills.names.mem_iff]
      exact List.mem_map_of_mem hmem
    · obtain ⟨wire, value, hwire, hvalue, hfound⟩ := hfills.read name type hfield
      exact ⟨value, ⟨wire, hwire, hvalue⟩, hfound⟩

/-- What decoding asks of an envelope, the order of its fields apart. -/
theorem ofEnvelope_eq_ok_iff_fills {specification : Specification}
    {envelope : Envelope} {message : Message} :
    ofEnvelope specification envelope = .ok message ↔
      envelope.protocol = specification.id.text
        ∧ envelope.reference.initiator ≠ unassigned
        ∧ startingMessageId ≤ envelope.messageId
        ∧ ∃ schema fields,
          specification.schema? envelope.performative = some schema
          ∧ Fills schema envelope.body fields
          ∧ message = ⟨specification.id,
            ⟨envelope.reference, envelope.messageId, envelope.target⟩,
            envelope.performative, fields.entries⟩ := by
  rw [ofEnvelope_eq_ok_iff]
  constructor
  · rintro ⟨hprotocol, hinitiator, hid, schema, collected, fields, hschema,
      hcollect, hread, hmessage⟩
    exact ⟨hprotocol, hinitiator, hid, schema, fields, hschema,
      fills_iff.mp ⟨collected, hcollect, hread⟩, hmessage⟩
  · rintro ⟨hprotocol, hinitiator, hid, schema, fields, hschema, hfills,
      hmessage⟩
    obtain ⟨collected, hcollect, hread⟩ := fills_iff.mpr hfills
    exact ⟨hprotocol, hinitiator, hid, schema, collected, fields, hschema,
      hcollect, hread, hmessage⟩

/-! ## Building what was read -/

/-- A value that was read is complete: an optional type reads nothing bare. -/
theorem completeField_of_interpret {name : String} {type : FieldType}
    {wire : Wire} {value : Value} (hread : type.interpret wire = .ok value) :
    completeField performative name type (some value) = .ok value := by
  cases type with
  | optional inner =>
    rcases FieldType.interpret_optional_eq_ok_iff.mp hread with
      ⟨-, rfl⟩ | ⟨before, found, -, -, rfl⟩
    · rfl
    · rfl
  | _ => cases value <;> rfl

theorem undeclared?_eq_none_iff {given : List (String × Value)} :
    undeclared? schema given = none ↔
      ∀ name ∈ given.map Prod.fst, name ∈ schema.keys := by
  simp [undeclared?, List.find?_eq_none, OrderedMap.contains_iff_mem,
    Text.mem_sort_iff]

/-- Fields in the order of the schema that are complete and of their types are
accepted as they are. -/
theorem accepts_of_complete (hkeys : fields.keys = schema.keys)
    (hfields : ∀ name type, schema.get? name = some type →
      ∃ value, fields.get? name = some value
        ∧ completeField performative name type (some value) = .ok value
        ∧ type.validate value = .ok ()) :
    undeclared? schema fields.entries = none
      ∧ schema.traverse (buildField performative fields.entries)
        = .ok fields := by
  refine ⟨undeclared?_eq_none_iff.mpr fun name hmem => hkeys ▸ hmem,
    OrderedMap.traverse_eq_ok_iff_get?.mpr ⟨hkeys, ?_⟩⟩
  intro name type hfield
  obtain ⟨value, hvalue, hcomplete, hvalid⟩ := hfields name type hfield
  have hgiven : OrderedMap.lookup name fields.entries.reverse = some value :=
    (OrderedMap.lookup_reverse_iff_mem fields.nodup_keys).mpr
      (OrderedMap.get?_eq_some_iff.mp hvalue)
  refine ⟨value, buildField_eq_ok_iff.mpr ⟨?_, hvalid⟩, hvalue⟩
  rw [hgiven]
  exact hcomplete

/-- Fields that were read from a body are accepted as they are. -/
theorem Fills.build (hfills : Fills schema body fields)
    (hwell : ∀ name type, (name, type) ∈ schema.entries →
      type.check = .ok ()) :
    undeclared? schema fields.entries = none
      ∧ schema.traverse (buildField performative fields.entries)
        = .ok fields := by
  refine accepts_of_complete hfills.keys fun name type hfield => ?_
  obtain ⟨wire, value, -, hread, hvalue⟩ := hfills.read name type hfield
  have htype := FieldType.isWellFormed_of_check type
    (hwell name type (OrderedMap.get?_eq_some_iff.mp hfield))
  exact ⟨value, hvalue, completeField_of_interpret hread,
    (htype.validate_of_interpret hread).1⟩

theorem Fills.isProper (hfills : Fills schema body fields)
    (hwell : ∀ name type, (name, type) ∈ schema.entries →
      type.check = .ok ()) : ∀ field ∈ fields.entries, field.2.IsProper := by
  rintro ⟨name, value⟩ hmem
  have hname : name ∈ schema.keys := hfills.keys ▸ List.mem_map_of_mem hmem
  obtain ⟨type, hfield⟩ := OrderedMap.mem_keys_iff.mp hname
  obtain ⟨wire, found, -, hread, hfound⟩ := hfills.read name type hfield
  rw [OrderedMap.get?_eq_some_iff.mpr hmem] at hfound
  cases hfound
  have htype := FieldType.isWellFormed_of_check type
    (hwell name type (OrderedMap.get?_eq_some_iff.mp hfield))
  exact (htype.validate_of_interpret hread).2

/-- What was decoded could have been built, from proper values. -/
theorem build_fields_of_decode {source : Source} {specification : Specification}
    {limit : Nat} {payload : Bytes} {message : Message}
    (hload : Specification.load source = .ok specification)
    (hdecode : decode specification limit payload = .ok message) :
    build specification message.performative message.fields message.routing
        = .ok message
      ∧ ∀ field ∈ message.fields, field.2.IsProper := by
  obtain ⟨-, envelope, -, henvelope⟩ := decode_eq_ok_iff.mp hdecode
  obtain ⟨-, -, -, schema, fields, hschema, hfills, rfl⟩ :=
    ofEnvelope_eq_ok_iff_fills.mp henvelope
  have hwell : ∀ name type, (name, type) ∈ schema.entries →
      type.check = .ok () := fun name type =>
    Specification.check_of_load hload hschema
  obtain ⟨hdeclared, hbuild⟩ := hfills.build hwell
  exact ⟨build_eq_ok_iff.mpr ⟨schema, fields, hschema, hdeclared, hbuild, rfl⟩,
    hfills.isProper hwell⟩

/-- A decoded message is complete, could have been built from its own fields,
and came from a body that held each of these once; in any other order they
make the same message. -/
theorem build_of_decode {source : Source} {specification : Specification}
    {limit : Nat} {payload : Bytes} {message : Message}
    (hload : Specification.load source = .ok specification)
    (hdecode : decode specification limit payload = .ok message) :
    message.protocol = specification.id
      ∧ message.routing.reference.initiator ≠ unassigned
      ∧ startingMessageId ≤ message.routing.messageId
      ∧ build specification message.performative message.fields message.routing
        = .ok message
      ∧ ∃ schema envelope,
        specification.schema? message.performative = some schema
        ∧ message.fields.map Prod.fst = schema.keys
        ∧ Envelope.readExact payload = .ok envelope
        ∧ (envelope.body.map Prod.fst).Perm schema.keys
        ∧ ∀ shuffled, shuffled.Perm envelope.body → ∀ limit payload,
          payload.length ≤ limit →
          Envelope.readExact payload = .ok { envelope with body := shuffled } →
          decode specification limit payload = .ok message := by
  obtain ⟨-, envelope, hread, henvelope⟩ := decode_eq_ok_iff.mp hdecode
  obtain ⟨hprotocol, hinitiator, hid, schema, fields, hschema, hfills, rfl⟩ :=
    ofEnvelope_eq_ok_iff_fills.mp henvelope
  obtain ⟨hdeclared, hbuild⟩ := hfills.build fun name type =>
    Specification.check_of_load hload hschema
  refine ⟨rfl, hinitiator, hid, build_eq_ok_iff.mpr
    ⟨schema, fields, hschema, hdeclared, hbuild, rfl⟩, schema, envelope, hschema,
    hfills.keys, hread, hfills.names, ?_⟩
  intro shuffled hperm other bytes hlimit hbytes
  have hother : ofEnvelope specification { envelope with body := shuffled } = _ :=
    ofEnvelope_eq_ok_iff_fills.mpr ⟨hprotocol, hinitiator, hid, schema, fields,
      hschema, hfills.of_perm hperm, rfl⟩
  exact decode_eq_ok_iff.mpr ⟨hlimit, _, hbytes, hother⟩

/-- A proposal whose body lists the price last. -/
def priceLast : Envelope where
  protocol := Negotiation.specification.id.text
  reference := ⟨"1", "2"⟩
  messageId := 2
  target := 1
  performative := "propose"
  body := [("conditions", .map [(.str "weight", .int 2), (.str "age", .int 1)]),
    ("items", .array [.str "apples"]), ("price", .float .nan)]

theorem build_of_decode_priceLast :
    let proposal : Message :=
      ⟨Negotiation.specification.id, ⟨⟨"1", "2"⟩, 2, 1⟩, "propose",
        [("price", .float .nan), ("items", .list [.str "apples"]),
          ("conditions", .dict [(.str "weight", .int 2), (.str "age", .int 1)])]⟩
    decode Negotiation.specification maxMessageSize priceLast.write
        = .ok proposal
      ∧ build Negotiation.specification "propose" proposal.fields
        proposal.routing = .ok proposal := by
  intro proposal
  have hread : Envelope.readExact priceLast.write = .ok priceLast :=
    priceLast.readExact_write (by decide +kernel) (by decide +kernel)
  have hdecode : decode Negotiation.specification maxMessageSize priceLast.write
      = .ok proposal :=
    decode_eq_ok_iff.mpr ⟨by decide +kernel, priceLast, hread, rfl⟩
  obtain ⟨-, -, -, hbuild, -⟩ :=
    build_of_decode Negotiation.load_source hdecode
  exact ⟨hdecode, hbuild⟩

end Colloquy.Message
