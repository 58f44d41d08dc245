import Colloquy.Message.Codec
import Colloquy.Negotiation.Specification
import Colloquy.Proofs.FieldType.RoundTrip
import Colloquy.Proofs.Message.Envelope
import Colloquy.Proofs.Specification.Load

/-!
# Messages read back

A message that fits its specification is read back from its payload as it was
built: with its place in the dialogue, its fields in declaration order, and in
them the order of dictionaries and the bits of floats.  Building gives every
field a value of its type; the field is then found in the payload under its
name and read at that type.
-/

namespace Colloquy

/-- No type of a field leaves open which member of a union wrote a value. -/
def Specification.isUnambiguous (specification : Specification) : Bool :=
  specification.speechActs.values.all fun schema =>
    schema.values.all FieldType.isUnambiguous

theorem Specification.isUnambiguous_field {specification : Specification}
    (hdistinct : specification.isUnambiguous = true) {performative : String}
    {schema : Schema} (hschema : specification.schema? performative = some schema)
    {name : String} {type : FieldType} (hfield : (name, type) ∈ schema.entries) :
    type.isUnambiguous = true := by
  rw [isUnambiguous, List.all_eq_true] at hdistinct
  have hact := hdistinct schema
    (List.mem_map_of_mem (OrderedMap.get?_eq_some_iff.mp hschema))
  rw [List.all_eq_true] at hact
  exact hact type (List.mem_map_of_mem hfield)

namespace Message

variable {performative name : String} {given : List (String × Value)}
  {type : FieldType} {value : Value}

/-! ## Built fields -/

theorem buildField_eq_ok_iff :
    buildField performative given name type = .ok value ↔
      completeField performative name type
          (OrderedMap.lookup name given.reverse) = .ok value
        ∧ type.validate value = .ok () := by
  simp only [buildField, bind_eq_ok_iff, mapError_eq_ok_iff]
  constructor
  · rintro ⟨found, hcomplete, ⟨⟩, hvalid, hsame⟩
    cases hsame
    exact ⟨hcomplete, hvalid⟩
  · rintro ⟨hcomplete, hvalid⟩
    exact ⟨value, hcomplete, (), hvalid, rfl⟩

/-- Wrapping a value keeps it proper. -/
theorem isProper_completeField {found : Option Value}
    (hfound : ∀ content, found = some content → content.IsProper)
    (hcomplete : completeField performative name type found = .ok value) :
    value.IsProper := by
  cases found with
  | none =>
    rw [completeField] at hcomplete
    split at hcomplete
    · cases hcomplete
      exact trivial
    · cases hcomplete
  | some content =>
    have hproper := hfound content rfl
    have hpresent :
        (if type.isOptional then content.present else content).IsProper := by
      split
      · exact hproper
      · exact hproper
    cases content with
    | optional inner =>
      cases hcomplete
      exact hproper
    | _ =>
      cases hcomplete
      exact hpresent

theorem isProper_buildField (hgiven : ∀ field ∈ given, field.2.IsProper)
    (hbuild : buildField performative given name type = .ok value) :
    value.IsProper := by
  apply isProper_completeField _ (buildField_eq_ok_iff.mp hbuild).1
  intro content hfound
  have hmem := List.mem_reverse.mp (OrderedMap.mem_of_lookup_eq_some hfound)
  exact hgiven (name, content) hmem

/-! ## Bodies -/

/-- Declared fields with names of their own are all collected, in order. -/
theorem collectBody_eq_ok {schema : Schema} {seen : OrderedMap String Wire}
    {body : List (String × Wire)}
    (hdeclared : ∀ field ∈ body, schema.contains field.1 = true)
    (hnodup : ((seen.entries ++ body).map Prod.fst).Nodup) :
    ∃ fields, collectBody performative schema seen body = .ok fields
      ∧ fields.entries = seen.entries ++ body := by
  induction body generalizing seen with
  | nil => exact ⟨seen, rfl, (List.append_nil _).symm⟩
  | cons field rest ih =>
    obtain ⟨name, wire⟩ := field
    obtain ⟨hname, hothers⟩ := List.forall_mem_cons.mp hdeclared
    have hnew : name ∉ seen.keys := by
      intro hseen
      rw [List.map_append, List.nodup_append] at hnodup
      exact hnodup.2.2 name hseen name List.mem_cons_self rfl
    have happend : (seen.insertNew name wire).entries ++ rest
        = seen.entries ++ (name, wire) :: rest := by
      rw [OrderedMap.entries_insertNew_of_not_mem wire hnew, List.append_assoc,
        List.singleton_append]
    have hdistinct :
        (((seen.insertNew name wire).entries ++ rest).map Prod.fst).Nodup :=
      happend ▸ hnodup
    obtain ⟨fields, hfields, hall⟩ := ih hothers hdistinct
    have habsent : seen.contains name = false := by
      rw [← Bool.not_eq_true, OrderedMap.contains_iff_mem]
      exact hnew
    refine ⟨fields, ?_, hall.trans happend⟩
    rw [collectBody, hname, habsent]
    exact hfields

/-- A body with declared fields only is collected as it is. -/
theorem collectBody_entries {schema : Schema} {body : OrderedMap String Wire}
    (hdeclared : ∀ field ∈ body.entries, schema.contains field.1 = true) :
    collectBody performative schema ∅ body.entries = .ok body := by
  have hcollect : ∃ fields,
      collectBody performative schema ∅ body.entries = .ok fields
        ∧ fields.entries = body.entries :=
    collectBody_eq_ok hdeclared body.nodup_keys
  obtain ⟨fields, hfields, hentries⟩ := hcollect
  rw [hfields, OrderedMap.ext_entries hentries]

/-- The fields that are written of a message are those of its schema. -/
theorem declared_of_keys {schema : Schema} {fields : OrderedMap String Value}
    (hkeys : fields.keys = schema.keys) :
    ∀ field ∈ (fields.mapValues Value.toWire).entries,
      schema.contains field.1 = true := by
  intro field hfield
  obtain ⟨entry, hentry, rfl⟩ := List.mem_map.mp hfield
  rw [OrderedMap.contains_iff_mem, ← hkeys]
  exact List.mem_map_of_mem hentry

/-- A field that was written under its name is read back at its type. -/
theorem interpretField_toWire {body : OrderedMap String Wire}
    (hbody : (name, value.toWire) ∈ body.entries)
    (hread : type.ReadsBack) (hproper : value.IsProper)
    (hvalid : type.validate value = .ok ()) :
    interpretField performative body name type = .ok value := by
  rw [interpretField, OrderedMap.get?_eq_some_iff.mpr hbody]
  exact mapError_eq_ok_iff.mpr (hread value hproper hvalid)

/-! ## Messages -/

/-- A message that was built under a specification is that of its envelope. -/
theorem ofEnvelope_toEnvelope {source : Source} {specification : Specification}
    {routing : Routing} {message : Message}
    (hload : Specification.load source = .ok specification)
    (hdistinct : specification.isUnambiguous = true)
    (hgiven : ∀ field ∈ given, field.2.IsProper)
    (hbuild : build specification performative given routing = .ok message)
    (hinitiator : routing.reference.initiator ≠ unassigned)
    (hid : startingMessageId ≤ routing.messageId) :
    ofEnvelope specification message.toEnvelope = .ok message := by
  obtain ⟨schema, fields, hschema, -, hfields, rfl⟩ :=
    build_eq_ok_iff.mp hbuild
  rw [OrderedMap.traverse_eq_ok_iff] at hfields
  have hkeys := OrderedMap.keys_of_traverseEntries _ hfields
  let body := fields.mapValues Value.toWire
  have hread : schema.traverse (interpretField performative body)
      = .ok fields := by
    apply (OrderedMap.traverse_eq_ok_iff _).mpr
    apply OrderedMap.traverseEntries_of_agree hfields
    intro name type value hfield hvalue hfit
    have hwritten : (name, value.toWire) ∈ body.entries :=
      List.mem_map.mpr ⟨(name, value), hvalue, rfl⟩
    have hback : type.ReadsBack := type.readsBack
      (Specification.isUnambiguous_field hdistinct hschema hfield)
      (Specification.check_of_load hload hschema hfield)
    exact interpretField_toWire hwritten hback (isProper_buildField hgiven hfit)
      (buildField_eq_ok_iff.mp hfit).2
  exact ofEnvelope_eq_ok_iff.mpr ⟨rfl, hinitiator, hid, schema, body, fields,
    hschema, collectBody_entries (declared_of_keys hkeys), hread, rfl⟩

/-- Under a specification whose unions are unambiguous, a payload holds the
message it was written from, whatever the limit that the payload keeps.  Its
length has to be one that the format can express in four bytes. -/
theorem decode_encode {source : Source} {specification : Specification}
    {routing : Routing} {message : Message} {limit : Nat}
    (hload : Specification.load source = .ok specification)
    (hdistinct : specification.isUnambiguous = true)
    (hgiven : ∀ field ∈ given, field.2.IsProper)
    (hbuild : build specification performative given routing = .ok message)
    (hinitiator : routing.reference.initiator ≠ unassigned)
    (hid : startingMessageId ≤ routing.messageId)
    (hdepth : ∀ field ∈ message.fields, field.2.toWire.depth ≤ maxNestingDepth)
    (hsize : message.encode.length < Bytes.capacity 4)
    (hlimit : message.encode.length ≤ limit) :
    decode specification limit message.encode = .ok message := by
  apply decode_eq_ok_iff.mpr
  have hnested : ∀ field ∈ message.toEnvelope.body,
      field.2.depth ≤ maxNestingDepth := by
    intro field hfield
    obtain ⟨entry, hentry, rfl⟩ := List.mem_map.mp hfield
    exact hdepth entry hentry
  have hread := message.toEnvelope.readExact_write hnested hsize
  exact ⟨hlimit, message.toEnvelope, hread,
    ofEnvelope_toEnvelope hload hdistinct hgiven hbuild hinitiator hid⟩

/-- The fields of a proposal as they are given: terms in an order of their own,
and no number for a price. -/
def proposalFields : List (String × Value) :=
  [("conditions", .dict [(.str "weight", .int 2), (.str "age", .int 1)]),
    ("items", .list [.str "apples"]), ("price", .float .nan)]

theorem decode_encode_proposal :
    let proposal : Message :=
      ⟨Negotiation.specification.id, ⟨⟨"1", "2"⟩, 2, 1⟩, "propose",
        [("price", .float .nan), ("items", .list [.str "apples"]),
          ("conditions", .dict [(.str "weight", .int 2), (.str "age", .int 1)])]⟩
    build Negotiation.specification "propose" proposalFields proposal.routing
        = .ok proposal
      ∧ decode Negotiation.specification maxMessageSize proposal.encode
        = .ok proposal := by
  intro proposal
  have hgiven : ∀ field ∈ proposalFields, field.2.IsProper := by
    simp [proposalFields, Value.IsProper, Value.AreProperEntries,
      Value.AreProper]
  have hbuild : build Negotiation.specification "propose" proposalFields
      proposal.routing = .ok proposal := rfl
  have hdepth : ∀ field ∈ proposal.fields,
      field.2.toWire.depth ≤ maxNestingDepth := by
    decide +kernel
  exact ⟨hbuild, decode_encode Negotiation.load_source (by decide +kernel) hgiven
    hbuild (by decide +kernel) (by decide +kernel) hdepth (by decide +kernel)
    (by decide +kernel)⟩

end Message

end Colloquy
