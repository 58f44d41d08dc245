import Colloquy.Proofs.Document.Json
import Colloquy.Proofs.Document.Mapping
import Colloquy.Specification.Source

/-!
# Sources as documents

A source is written with a key for every entry of its maps, and read with an entry
for every key.  Fields may come in any order; a draft remembers which of them have
been read.

Main statement: a source is read back from its JSON text, and a text is refused
if a key is repeated in it, on the outside or in one of the mappings of a source,
or if a key on the outside is not the name of a field.
-/

namespace Colloquy.Source

open Document (asText asOption asList asOrderedMap)

/-! ## Round trip -/

section Writing

theorem asTexts_ofTexts (texts : List String) :
    asTexts (ofTexts texts) = .ok texts := by
  have hread : (texts.map Document.text).mapM asText = .ok texts := by
    induction texts with
    | nil => rfl
    | cons text texts ih =>
      rw [List.map_cons, List.mapM_cons, ih]
      rfl
  simp only [asTexts, ofTexts, asList, Document.ofList, hread]
  rfl

theorem isTextual_ofTexts (texts : List String) : (ofTexts texts).IsTextual := by
  refine .ofList fun item hmem => ?_
  obtain ⟨text, -, rfl⟩ := List.mem_map.mp hmem
  exact .text text

theorem isTextual_ofOrderedMap {ν : Type} {render : ν → Document}
    (hrender : ∀ content, (render content).IsTextual)
    (map : OrderedMap String ν) :
    (Document.ofOrderedMap render map).IsTextual := by
  refine .ofEntries fun entry hmem => ?_
  obtain ⟨pair, -, rfl⟩ := List.mem_map.mp hmem
  exact hrender pair.2

theorem isTextual_toDocument (source : Source) : source.toDocument.IsTextual := by
  have htexts := isTextual_ofOrderedMap Document.IsTextual.text
  have hmaps := isTextual_ofOrderedMap htexts
  have hlists := isTextual_ofOrderedMap isTextual_ofTexts
  refine .ofEntries ?_
  cases source.description <;> cases source.initiation <;>
    simp [Document.IsTextual.text, isTextual_ofTexts, htexts, hmaps, hlists]

theorem readEntries_ofEntries (draft : Draft) (fields : List (String × Document)) :
    draft.readEntries (fields.map fun field => (.text field.1, field.2))
      = draft.readFields fields := by
  induction fields generalizing draft with
  | nil => rfl
  | cons field rest ih =>
    simp only [List.map_cons, Draft.readEntries, Draft.readFields, ← ih]
    rfl

theorem Draft.readFields_append (draft : Draft)
    (fields others : List (String × Document)) :
    draft.readFields (fields ++ others)
      = draft.readFields fields >>= (·.readFields others) := by
  induction fields generalizing draft with
  | nil => rfl
  | cons field rest ih =>
    simp only [List.cons_append, Draft.readFields, bind_assoc, ih]

/-- A field that may be left out: what is written is read, and nothing else. -/
theorem Draft.readFields_description {draft : Draft}
    (hnone : draft.description = none) (description : Option String) :
    draft.readFields (description.map fun text =>
        ("description", Document.text text)).toList
      = .ok { draft with description := description.map some } := by
  cases description with
  | none =>
    cases draft
    cases hnone
    rfl
  | some text =>
    simp [readFields, readField, readOnce, hnone, asOption, Document.isNull,
      asText, Except.map, bind, Except.bind]

theorem Draft.readFields_initiation {draft : Draft}
    (hnone : draft.initiation = none) (initiation : Option (List String)) :
    draft.readFields (initiation.map fun openers =>
        ("initiation", ofTexts openers)).toList
      = .ok { draft with initiation := initiation.map some } := by
  cases initiation with
  | none =>
    cases draft
    cases hnone
    rfl
  | some openers =>
    have hnull : (ofTexts openers).isNull = false := rfl
    simp [readFields, readField, readOnce, hnone, asOption, hnull,
      asTexts_ofTexts, Except.map, bind, Except.bind]

/-- A draft in which every field of a source has been read. -/
def Draft.ofSource (source : Source) : Draft where
  name := source.name
  author := source.author
  version := source.version
  description := source.description.map some
  speechActs := source.speechActs
  customTypes := source.customTypes
  reply := source.reply
  roles := source.roles
  endStates := source.endStates
  initiation := source.initiation.map some
  speakers := source.speakers
  terminalOutcomes := source.terminalOutcomes

theorem Draft.finish_ofSource (source : Source) :
    (Draft.ofSource source).finish = .ok source := by
  obtain ⟨_, _, _, description, _, _, _, _, _, initiation, _, _⟩ := source
  cases description <;> cases initiation <;> rfl

theorem ofDocument_toDocument (source : Source) :
    ofDocument source.toDocument = .ok source := by
  have htexts := Document.asOrderedMap_ofOrderedMap
    (fun text => (rfl : asText (.text text) = .ok text))
  have hmaps := Document.asOrderedMap_ofOrderedMap htexts
  have hlists := Document.asOrderedMap_ofOrderedMap asTexts_ofTexts
  simp only [toDocument, Document.ofEntries, ofDocument, readEntries_ofEntries,
    Draft.readFields_append]
  -- The two fields that may be left out have their own lemmas, so that the draft
  -- goes through all twelve without a case being split.
  simp only [Draft.readFields, Draft.readField, Draft.readOnce, asText, hmaps,
    hlists, htexts, asTexts_ofTexts, Draft.readFields_description,
    Draft.readFields_initiation, bind, Except.bind, Except.map]
  exact Draft.finish_ofSource source

end Writing

/-! ## Refusal -/

/-- The fields that are mappings. -/
def mappingNames : List String :=
  ["speech_acts", "custom_types", "reply", "speakers", "terminal_outcomes"]

/-- The fields that are mappings of mappings. -/
def nestedNames : List String := ["speech_acts", "custom_types"]

/-- The fields of a source in a document: under their names in a mapping, in their
places in a sequence. -/
def fieldsOf : Document → List (String × Document)
  | .mapping entries _ => entries.filterMap fun entry =>
    (asText entry.1).toOption.map fun name => (name, entry.2)
  | .sequence items _ => fieldNames.zip items
  | _ => []

/-- A document with an entry for which a source has no place: a second one under
a key, on the outside, in a field or in a mapping inside a field, or one under a
key that names no field. -/
inductive HasExcess : Document → Prop where
  | repeated {document : Document} (hrepeated : ¬ document.names.Nodup) :
    HasExcess document
  | unknown {entries : List (Document × Document)} {ended : Bool}
    {entry : Document × Document} (hmem : entry ∈ entries)
    (hunknown : ∀ name ∈ fieldNames, asText entry.1 ≠ .ok name) :
    HasExcess (.mapping entries ended)
  | field {document content : Document} {name : String}
    (hmem : (name, content) ∈ fieldsOf document) (hname : name ∈ mappingNames)
    (hrepeated : ¬ content.names.Nodup) : HasExcess document
  | nested {document content inside : Document} {name : String}
    (hmem : (name, content) ∈ fieldsOf document) (hname : name ∈ nestedNames)
    (hinside : inside ∈ content.contents) (hrepeated : ¬ inside.names.Nodup) :
    HasExcess document

/-- No key is repeated in a field, or in a mapping inside it. -/
structure KeepsKeys (name : String) (content : Document) : Prop where
  outer : name ∈ mappingNames → content.names.Nodup
  inner : name ∈ nestedNames → ∀ inside ∈ content.contents, inside.names.Nodup

section Reading

variable {draft next : Draft} {name : String} {document : Document}
  {fields : List (String × Document)}

/-- Which fields have been read, in the order of their names. -/
def Draft.marks (draft : Draft) : List Bool :=
  [draft.name.isSome, draft.author.isSome, draft.version.isSome,
    draft.description.isSome, draft.speechActs.isSome, draft.customTypes.isSome,
    draft.reply.isSome, draft.roles.isSome, draft.endStates.isSome,
    draft.initiation.isSome, draft.speakers.isSome, draft.terminalOutcomes.isSome]

/-- A name is that of a field that has not been read. -/
def Draft.IsOpen (draft : Draft) (name : String) : Prop :=
  draft.marks[fieldNames.idxOf name]? = some false

theorem Draft.readOnce_eq_ok_iff {α : Type} {read : Option α}
    {value : Except Document.Fault α} {store : Option α → Draft} :
    readOnce name read value store = .ok next ↔
      read = none ∧ ∃ content, value = .ok content
        ∧ next = store (some content) := by
  cases read with
  | some content => simp [readOnce]
  | none => cases value <;> simp [readOnce, Except.map, eq_comm]

theorem Draft.marks_readField (hread : draft.readField name document = .ok next) :
    draft.IsOpen name
      ∧ next.marks = draft.marks.set (fieldNames.idxOf name) true := by
  rw [readField.eq_def] at hread
  split at hread
  case h_13 => cases hread
  all_goals
    obtain ⟨hnone, content, -, rfl⟩ := readOnce_eq_ok_iff.mp hread
    exact ⟨by simp [IsOpen, marks, fieldNames, hnone], rfl⟩

theorem KeepsKeys.of_other (hname : name ∉ mappingNames) (content : Document) :
    KeepsKeys name content := by
  have hsublist : nestedNames.Sublist mappingNames := by decide
  exact ⟨fun hmem => absurd hmem hname,
    fun hmem => absurd (hsublist.subset hmem) hname⟩

theorem KeepsKeys.of_mapping {ν : Type}
    {value : Document → Except Document.Fault ν}
    {map : OrderedMap String ν} (hname : name ∉ nestedNames)
    (hread : asOrderedMap value document = .ok map) : KeepsKeys name document := by
  refine ⟨fun _ => ?_, fun hmem => absurd hmem hname⟩
  rw [Document.names_of_asOrderedMap hread]
  exact map.nodup_keys

theorem KeepsKeys.of_nested {ν : Type}
    {value : Document → Except Document.Fault ν}
    {map : OrderedMap String (OrderedMap String ν)}
    (hread : asOrderedMap (asOrderedMap value) document = .ok map) :
    KeepsKeys name document := by
  refine ⟨fun _ => ?_, fun _ inside hinside => ?_⟩
  · rw [Document.names_of_asOrderedMap hread]
    exact map.nodup_keys
  · obtain ⟨found, hfound⟩ :=
      Document.exists_of_mem_contents hread inside hinside
    rw [Document.names_of_asOrderedMap hfound]
    exact found.nodup_keys

theorem Draft.keepsKeys_readField
    (hread : draft.readField name document = .ok next) :
    KeepsKeys name document := by
  rw [readField.eq_def] at hread
  split at hread
  case h_13 => cases hread
  all_goals obtain ⟨-, content, hvalue, -⟩ := readOnce_eq_ok_iff.mp hread
  -- Speech acts and custom types.
  case h_5 | h_6 => exact .of_nested hvalue
  -- The replies, the speakers and the outcomes.
  case h_7 | h_11 | h_12 => exact .of_mapping (by decide) hvalue
  all_goals exact .of_other (by decide) document

theorem Draft.isOpen_readField (hread : draft.readField name document = .ok next)
    {other : String} (hopen : next.IsOpen other) :
    other ≠ name ∧ draft.IsOpen other := by
  obtain ⟨hname, hmarks⟩ := marks_readField hread
  rw [IsOpen, hmarks, List.getElem?_set] at hopen
  split at hopen
  · split at hopen <;> cases hopen
  · rename_i hne
    exact ⟨fun heq => hne (heq ▸ rfl), hopen⟩

/-- Fields that are read are told apart, and none of them is unknown. -/
theorem Draft.of_readFields (hread : draft.readFields fields = .ok next) :
    (fields.map Prod.fst).Nodup ∧ ∀ field ∈ fields,
      draft.IsOpen field.1 ∧ KeepsKeys field.1 field.2 := by
  induction fields generalizing draft with
  | nil => exact ⟨List.nodup_nil, List.forall_mem_nil _⟩
  | cons field rest ih =>
    obtain ⟨later, hfield, hrest⟩ := bind_eq_ok_iff.mp hread
    obtain ⟨hnodup, hall⟩ := ih hrest
    have hlater := fun other hmem => isOpen_readField hfield (hall other hmem).1
    refine ⟨List.nodup_cons.mpr ⟨fun hmem => ?_, hnodup⟩,
      List.forall_mem_cons.mpr ⟨⟨(marks_readField hfield).1,
        keepsKeys_readField hfield⟩, fun other hmem => ?_⟩⟩
    · obtain ⟨other, hother, hsame⟩ := List.mem_map.mp hmem
      exact (hlater other hother).1 hsame
    · exact ⟨(hlater other hmem).2, (hall other hmem).2⟩

theorem Draft.IsOpen.mem (hopen : draft.IsOpen name) : name ∈ fieldNames := by
  obtain ⟨hlt, -⟩ := List.getElem?_eq_some_iff.mp hopen
  exact List.idxOf_lt_length_iff.mp hlt

theorem names_sublist (document : Document) :
    document.names.Sublist ((fieldsOf document).map Prod.fst) := by
  cases document with
  | mapping entries ended =>
    rw [fieldsOf, List.map_filterMap]
    simp [Document.names, Option.map_map, Function.comp_def]
  | _ => exact List.nil_sublist _

theorem Draft.of_readEntries {entries : List (Document × Document)} (ended : Bool)
    (hread : draft.readEntries entries = .ok next) :
    draft.readFields (fieldsOf (.mapping entries ended)) = .ok next
      ∧ ∀ entry ∈ entries, ∃ name, asText entry.1 = .ok name := by
  induction entries generalizing draft with
  | nil => exact ⟨hread, List.forall_mem_nil _⟩
  | cons entry rest ih =>
    obtain ⟨name, hname, hrest⟩ := bind_eq_ok_iff.mp hread
    obtain ⟨later, hfield, hrest⟩ := bind_eq_ok_iff.mp hrest
    obtain ⟨hfields, hnames⟩ := ih hrest
    refine ⟨?_, List.forall_mem_cons.mpr ⟨⟨name, hname⟩, hnames⟩⟩
    rw [fieldsOf, List.filterMap_cons, hname]
    exact bind_eq_ok_iff.mpr ⟨later, hfield, hfields⟩

theorem exists_readFields {source : Source}
    (hread : ofDocument document = .ok source) :
    (∃ draft, ({} : Draft).readFields (fieldsOf document) = .ok draft)
      ∧ ∀ entries ended, document = .mapping entries ended →
        ∀ entry ∈ entries, ∃ name, asText entry.1 = .ok name := by
  rw [ofDocument.eq_def] at hread
  split at hread
  · rename_i entries ended
    obtain ⟨draft, hdraft, -⟩ := bind_eq_ok_iff.mp hread
    obtain ⟨hfields, hnames⟩ := Draft.of_readEntries ended hdraft
    refine ⟨⟨draft, hfields⟩, ?_⟩
    rintro _ _ ⟨⟩
    exact hnames
  · obtain ⟨draft, hdraft, -⟩ := bind_eq_ok_iff.mp hread
    exact ⟨⟨draft, hdraft⟩, by simp⟩
  · exact ⟨⟨{}, rfl⟩, by simp⟩
  · cases hread

theorem not_hasExcess {source : Source} (hread : ofDocument document = .ok source) :
    ¬ HasExcess document := by
  obtain ⟨⟨draft, hfields⟩, hnames⟩ := exists_readFields hread
  obtain ⟨hnodup, hall⟩ := Draft.of_readFields hfields
  intro hexcess
  cases hexcess with
  | repeated hrepeated => exact hrepeated ((names_sublist document).nodup hnodup)
  | @unknown entries ended entry hmem hunknown =>
    obtain ⟨name, hname⟩ := hnames entries ended rfl entry hmem
    have hfield : (name, entry.2) ∈ fieldsOf (.mapping entries ended) :=
      List.mem_filterMap.mpr ⟨entry, hmem, by rw [hname]; rfl⟩
    exact hunknown name (hall _ hfield).1.mem hname
  | field hmem hname hrepeated =>
    exact hrepeated ((hall _ hmem).2.outer hname)
  | nested hmem hname hinside hrepeated =>
    exact hrepeated ((hall _ hmem).2.inner hname _ hinside)

end Reading

/-- Whatever texts it holds, a source is read back from its JSON text, every map
with its entries in the same order; and a text is refused, whatever else it says,
if its document has an entry that a source has no place for. -/
theorem ofJson_exact :
    (∀ source : Source, ofJson source.toJson = .ok source) ∧
      ∀ text, HasExcess (Document.ofJson text).1 →
        ∃ fault, ofJson text = .error fault := by
  constructor
  · intro source
    rw [ofJson, toJson, Document.ofJson_toJson (isTextual_toDocument source)]
    simp only [ofRead, ofDocument_toDocument]
    rfl
  · intro text hexcess
    cases hread : ofJson text with
    | error fault => exact ⟨fault, rfl⟩
    | ok source =>
      obtain ⟨_, hdocument, -⟩ := bind_eq_ok_iff.mp hread
      exact absurd hexcess (not_hasExcess hdocument)

/-- A ping is read back, with an empty description and not without one.  What it
contains cannot be said twice. -/
theorem ofJson_exact_ping :
    let ping : Source := {
      name := "ping"
      author := "\"parley\"\n"
      version := "0.1.0"
      description := some ""
      speechActs := .ofList [("pong", ∅), ("ping", .ofList [("nonce", "pt:int")])]
      customTypes := ∅
      reply := .ofList [("ping", ["pong"]), ("pong", [])]
      roles := ["pinger", "ponger"]
      endStates := []
      initiation := none
      speakers := ∅
      terminalOutcomes := ∅ }
    let text := "\x7b\"speech_acts\":\x7b\"ping\":\x7b"
      ++ "\"nonce\":\"pt:int\",\"nonce\":\"pt:str\"\x7d\x7d\x7d"
    ofJson ping.toJson = .ok ping ∧ HasExcess (Document.ofJson text).1
      ∧ ∃ fault, ofJson text = .error fault := by
  intro ping text
  let contents := [("nonce", Document.text "pt:int"), ("nonce", .text "pt:str")]
  let twice : Document :=
    .ofEntries [("speech_acts", .ofEntries [("ping", .ofEntries contents)])]
  have hcontents : ∀ entry ∈ contents, entry.2.IsTextual :=
    List.forall_mem_cons.mpr ⟨.text _, List.forall_mem_singleton.mpr (.text _)⟩
  have htextual : twice.IsTextual :=
    .ofEntries (List.forall_mem_singleton.mpr
      (.ofEntries (List.forall_mem_singleton.mpr (.ofEntries hcontents))))
  have hwritten : text = twice.toJson := by decide +kernel
  have hexcess : HasExcess (Document.ofJson text).1 := by
    rw [hwritten, Document.ofJson_toJson htextual]
    exact .nested List.mem_cons_self (by decide) List.mem_cons_self (by decide)
  exact ⟨ofJson_exact.1 ping, hexcess, ofJson_exact.2 _ hexcess⟩

end Colloquy.Source
