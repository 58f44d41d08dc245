import Colloquy.Specification.Load

/-!
# Loaded specifications

Loading runs its checks one after the other and compiles what passes all of
them.  `IsLoaded` says part by part what a loaded specification comes from, so
that a fact about one part never has to go through the others.
-/

namespace Colloquy.Specification

/-- A source passes every check and compiles to the specification, with the
given records. -/
structure IsLoaded (source : Source) (types : CustomTypes)
    (specification : Specification) : Prop where
  id : loadId source = .ok specification.id
  customTypes : loadCustomTypes ∅ source.customTypes.entries = .ok types
  speechActs :
    source.speechActs.traverse (loadSchema types) = .ok specification.speechActs
  replyTable :
    checkReplyTable specification.speechActs.keys source.reply = .ok ()
  roles : loadRoles source.roles
    = .ok (specification.initiator, specification.responder)
  distinctEndStates : checkEndStates [] source.endStates = .ok ()
  initiation :
    loadInitiation specification.speechActs.keys source.reply source.initiation
      = .ok specification.initiation
  speakers :
    loadSpeakers specification.speechActs.keys
      (specification.initiator, specification.responder) ∅
      source.speakers.entries = .ok specification.speakers
  outcomes :
    source.terminalOutcomes.traverse
      (loadOutcome specification.speechActs.keys source.reply source.endStates)
      = .ok specification.outcomes
  description : specification.description = source.description
  reply : specification.reply = source.reply
  endStates : specification.endStates = source.endStates.map EndState.mk

theorem load_eq_ok_iff {source : Source} {specification : Specification} :
    load source = .ok specification ↔
      ∃ types, IsLoaded source types specification := by
  simp only [load, bind_eq_ok_iff, Except.ok.injEq]
  constructor
  · rintro ⟨id, hid, types, htypes, speechActs, hacts, ⟨⟩, htable,
      ⟨initiator, responder⟩, hroles, ⟨⟩, hstates, initiation, hinitiation,
      speakers, hspeakers, outcomes, houtcomes, rfl⟩
    exact ⟨types, hid, htypes, hacts, htable, hroles, hstates, hinitiation,
      hspeakers, houtcomes, rfl, rfl, rfl⟩
  · rintro ⟨types, hloaded⟩
    refine ⟨_, hloaded.id, _, hloaded.customTypes, _, hloaded.speechActs, (),
      hloaded.replyTable, _, hloaded.roles, (), hloaded.distinctEndStates, _,
      hloaded.initiation, _, hloaded.speakers, _, hloaded.outcomes, ?_⟩
    rw [← hloaded.description, ← hloaded.reply, ← hloaded.endStates]

/-! ## Types of fields -/

theorem check_of_loadField {types : CustomTypes} {owner name text : String}
    {isName : String → Bool} {type : FieldType}
    (hload : loadField types owner isName name text = .ok type) :
    type.check = .ok () := by
  rw [loadField] at hload
  split at hload
  · obtain ⟨rest, -, -, hcheck⟩ :=
      FieldType.parse_eq_ok_iff.mp (mapError_eq_ok_iff.mp hload)
    exact hcheck
  · cases hload

/-- Every field of a loaded specification has a well-formed type. -/
theorem check_of_load {source : Source} {specification : Specification}
    (hload : load source = .ok specification) {performative : String}
    {schema : Schema} (hschema : specification.schema? performative = some schema)
    {name : String} {type : FieldType} (hfield : (name, type) ∈ schema.entries) :
    type.check = .ok () := by
  obtain ⟨types, hloaded⟩ := load_eq_ok_iff.mp hload
  have hacts := (OrderedMap.traverse_eq_ok_iff _).mp hloaded.speechActs
  obtain ⟨contents, -, hcontents⟩ := OrderedMap.exists_of_mem_traverseEntries
    hacts (OrderedMap.get?_eq_some_iff.mp hschema)
  rw [loadSchema] at hcontents
  split at hcontents
  · cases hcontents
  · have hfields := (OrderedMap.traverse_eq_ok_iff _).mp hcontents
    obtain ⟨text, -, htype⟩ :=
      OrderedMap.exists_of_mem_traverseEntries hfields hfield
    exact check_of_loadField htype

/-! ## Outcomes -/

theorem hasEndState_iff {specification : Specification} {state : EndState} :
    specification.hasEndState state = true ↔ state ∈ specification.endStates :=
  decide_eq_true_iff

/-- What a loaded specification records at the end of a dialogue is declared. -/
theorem mem_endStates_of_outcome? {source : Source}
    {specification : Specification}
    (hload : load source = .ok specification) {performative : String}
    {state : EndState}
    (houtcome : specification.outcome? performative = some state) :
    state ∈ specification.endStates := by
  obtain ⟨types, hloaded⟩ := load_eq_ok_iff.mp hload
  have houtcomes := (OrderedMap.traverse_eq_ok_iff _).mp hloaded.outcomes
  obtain ⟨name, -, hname⟩ := OrderedMap.exists_of_mem_traverseEntries
    houtcomes (OrderedMap.get?_eq_some_iff.mp houtcome)
  simp only [loadOutcome, bind_eq_ok_iff] at hname
  obtain ⟨⟨⟩, -, hname⟩ := hname
  split at hname
  · cases hname
  · split at hname
    · cases hname
    · rename_i hdeclared
      cases hname
      rw [hloaded.endStates]
      exact List.mem_map_of_mem (Decidable.not_not.mp hdeclared)

end Colloquy.Specification
