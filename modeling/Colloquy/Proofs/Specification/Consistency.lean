import Colloquy.Proofs.Specification.Checks

/-!
# Consistent sources

What has to hold of a source so that it describes a protocol, said without the
order in which loading looks at its parts.  Main statement: exactly the
consistent sources are loaded, and what a loaded specification answers is what
its source says.
-/

namespace Colloquy

namespace Source

/-- Wherever a source speaks of a performative without declaring it. -/
inductive Mentions (source : Source) (performative : String) : Prop where
  | entry (hmem : performative ∈ source.reply.keys)
  | reply {replies : List String} (hreplies : replies ∈ source.reply.values)
      (hmem : performative ∈ replies)
  | opener {openers : List String} (hopeners : source.initiation = some openers)
      (hmem : performative ∈ openers)
  | speaker {allowed : List String}
      (hallowed : allowed ∈ source.speakers.values)
      (hmem : performative ∈ allowed)
  | outcome (hmem : performative ∈ source.terminalOutcomes.keys)

/-- The performatives that open a dialogue: those that are listed, or else those
that follow no other one. -/
def Opens (source : Source) (performative : String) : Prop :=
  match source.initiation with
  | some openers => performative ∈ openers
  | none =>
    performative ∈ source.speechActs.keys
      ∧ ∀ replies ∈ source.reply.values, performative ∉ replies

structure IsConsistent (source : Source) : Prop where
  author : ∃ char ∈ source.author.toList, Text.isWhiteSpace char = false
  name : ∃ char ∈ source.name.toList, Text.isWhiteSpace char = false
  version : ∃ char ∈ source.version.toList, Text.isWhiteSpace char = false
  types : ∃ types, Declares source.customTypes.entries types
    ∧ ∀ performative contents,
      source.speechActs.get? performative = some contents →
      ∀ name text, contents.get? name = some text →
        ∃ type, FieldType.parse types text = .ok type
  performatives : ∀ performative ∈ source.speechActs.keys,
    Text.IsIdentifier performative
  contents : ∀ contents ∈ source.speechActs.values, ∀ name ∈ contents.keys,
    Text.IsIdentifier name ∧ name ∉ Specification.reservedNames
  declared : ∀ performative, source.Mentions performative →
    performative ∈ source.speechActs.keys
  answered : ∀ performative ∈ source.speechActs.keys,
    performative ∈ source.reply.keys
  distinctReplies : ∀ replies ∈ source.reply.values, replies.Nodup
  terminal : [] ∈ source.reply.values
  roles : ∃ initiator responder, source.roles = [initiator, responder]
    ∧ initiator ≠ responder
  distinctEndStates : source.endStates.Nodup
  opener : ∃ performative, source.Opens performative
  speakers : ∀ name ∈ source.speakers.keys, name ∈ source.roles
  outcomes : ∀ performative name,
    source.terminalOutcomes.get? performative = some name →
      source.reply.get? performative = some [] ∧ name ∈ source.endStates

/-- What a specification answers is what the source says. -/
structure Describes (source : Source) (specification : Specification) :
    Prop where
  id : specification.id = ⟨source.author, source.name, source.version⟩
  description : specification.description = source.description
  /-- In the order of the source. -/
  performatives : specification.speechActs.keys = source.speechActs.keys
  schemas : ∃ types, Declares source.customTypes.entries types
    ∧ ∀ performative contents,
      source.speechActs.get? performative = some contents →
      ∃ schema, specification.schema? performative = some schema
        ∧ IsSchema types contents schema
  replies : ∀ performative,
    specification.replies? performative = source.reply.get? performative
  isReply : ∀ previous next, specification.isReply previous next = true ↔
    ∃ replies, source.reply.get? previous = some replies ∧ next ∈ replies
  isTerminal : ∀ performative, specification.isTerminal performative = true ↔
    source.reply.get? performative = some []
  isInitiating : ∀ performative,
    specification.isInitiating performative = true ↔ source.Opens performative
  /-- In increasing order, each once. -/
  initiation : specification.initiation.Pairwise (· < ·)
  roles : source.roles
    = [specification.roleName .initiator, specification.roleName .responder]
  role : ∀ name role,
    specification.role? name = some role ↔ name = specification.roleName role
  maySend : ∀ role performative,
    specification.maySend role performative = true ↔
      ∀ allowed, source.speakers.get? (specification.roleName role) = some allowed →
        performative ∈ allowed
  /-- In the order of the source. -/
  endStates : specification.endStates = source.endStates.map EndState.mk
  hasEndState : ∀ name,
    specification.hasEndState ⟨name⟩ = true ↔ name ∈ source.endStates
  outcome : ∀ performative, specification.outcome? performative
    = (source.terminalOutcomes.get? performative).map EndState.mk

end Source

namespace Specification

open Source

/-! ## Parts of a loaded specification -/

section Sources

variable {source : Source} {specification : Specification} {types : CustomTypes}

theorem opens_iff {performative : String} :
    performative ∈ source.initiation.getD
        (uncalled source.speechActs.keys source.reply) ↔
      source.Opens performative := by
  rw [Opens]
  cases source.initiation with
  | none => exact mem_uncalled_iff
  | some openers => exact Iff.rfl

theorem IsLoaded.keys (hloaded : IsLoaded source types specification) :
    specification.speechActs.keys = source.speechActs.keys :=
  (OrderedMap.traverse_eq_ok_iff_get?.mp hloaded.speechActs).1

theorem IsLoaded.schema (hloaded : IsLoaded source types specification)
    {performative : String} {contents : OrderedMap String String}
    (hcontents : source.speechActs.get? performative = some contents) :
    Text.IsIdentifier performative
      ∧ (∀ name ∈ contents.keys,
        Text.IsIdentifier name ∧ name ∉ reservedNames)
      ∧ ∃ schema, specification.schema? performative = some schema
        ∧ IsSchema types contents schema := by
  obtain ⟨schema, hschema, hfound⟩ :=
    (OrderedMap.traverse_eq_ok_iff_get?.mp hloaded.speechActs).2
      performative contents hcontents
  obtain ⟨hname, hnames, hfields⟩ := loadSchema_eq_ok_iff.mp hschema
  exact ⟨hname, hnames, schema, hfound, hfields⟩

theorem IsLoaded.mem_initiation_iff
    (hloaded : IsLoaded source types specification) {performative : String} :
    performative ∈ specification.initiation ↔ source.Opens performative := by
  obtain ⟨-, -, hsorted⟩ := loadInitiation_eq_ok_iff.mp hloaded.initiation
  rw [hsorted, Text.mem_sort_iff, hloaded.keys, opens_iff]

theorem IsLoaded.outcome? (hloaded : IsLoaded source types specification)
    (performative : String) :
    specification.outcome? performative
      = (source.terminalOutcomes.get? performative).map EndState.mk := by
  obtain ⟨hkeys, hall⟩ := OrderedMap.traverse_eq_ok_iff_get?.mp hloaded.outcomes
  cases hname : source.terminalOutcomes.get? performative with
  | none =>
    rw [OrderedMap.get?_eq_none_iff, ← hkeys] at hname
    exact OrderedMap.get?_eq_none_iff.mpr hname
  | some name =>
    obtain ⟨state, hstate, hfound⟩ := hall performative name hname
    obtain ⟨-, -, -, rfl⟩ := loadOutcome_eq_ok_iff.mp hstate
    exact hfound

theorem IsLoaded.get?_speakers (hloaded : IsLoaded source types specification)
    (role : Role) :
    specification.speakers.get? role
      = source.speakers.get? (specification.roleName role) := by
  have hroles : ∀ {name role},
      findRole (specification.initiator, specification.responder) name
        = .ok role ↔ name = specification.roleName role := by
    intro name role
    rw [findRole_eq_ok_iff (loadRoles_eq_ok_iff.mp hloaded.roles).2]
    cases role <;> rfl
  have hfound := get?_of_loadSpeakers hroles source.speakers.nodup_keys
    hloaded.speakers role
  rw [hfound, OrderedMap.get?_empty, Option.or_none]
  rfl

theorem IsLoaded.isConsistent (hloaded : IsLoaded source types specification) :
    source.IsConsistent := by
  obtain ⟨⟨hauthor, hname, hversion⟩, -⟩ := loadId_eq_ok_iff.mp hloaded.id
  obtain ⟨hentries, hreplies, hanswered, hterminal⟩ :=
    checkReplyTable_eq_ok_iff.mp hloaded.replyTable
  obtain ⟨hroles, hdistinct⟩ := loadRoles_eq_ok_iff.mp hloaded.roles
  obtain ⟨hopeners, hsome, -⟩ := loadInitiation_eq_ok_iff.mp hloaded.initiation
  have hspeakers := exists_loadSpeakers_iff.mp ⟨_, hloaded.speakers⟩
  have houtcomes : ∀ performative name,
      source.terminalOutcomes.get? performative = some name →
        performative ∈ specification.speechActs.keys
          ∧ source.reply.get? performative = some []
          ∧ name ∈ source.endStates := by
    intro performative name hfound
    obtain ⟨state, hstate, -⟩ := (OrderedMap.traverse_eq_ok_iff_get?.mp
      hloaded.outcomes).2 performative name hfound
    obtain ⟨hdeclared, hlast, hmem, -⟩ := loadOutcome_eq_ok_iff.mp hstate
    exact ⟨hdeclared, hlast, hmem⟩
  rw [hloaded.keys] at hentries hreplies hanswered hopeners hspeakers houtcomes
  constructor
  case author => exact Text.isBlank_eq_false_iff.mp hauthor
  case name => exact Text.isBlank_eq_false_iff.mp hname
  case version => exact Text.isBlank_eq_false_iff.mp hversion
  case types =>
    refine ⟨types, loadCustomTypes_eq_ok_iff.mp hloaded.customTypes, ?_⟩
    intro performative contents hcontents name text htext
    obtain ⟨-, -, schema, -, hfields⟩ := hloaded.schema hcontents
    obtain ⟨type, hparse, -⟩ := hfields.types name text htext
    exact ⟨type, hparse⟩
  case performatives =>
    intro performative hmem
    obtain ⟨contents, hcontents⟩ := OrderedMap.mem_keys_iff.mp hmem
    exact (hloaded.schema hcontents).1
  case contents =>
    intro contents hmem
    obtain ⟨performative, hcontents⟩ := OrderedMap.mem_values_iff.mp hmem
    exact (hloaded.schema hcontents).2.1
  case declared =>
    intro performative hmention
    cases hmention with
    | entry hmem => exact hentries performative hmem
    | reply hlist hmem => exact (hreplies _ hlist).1 performative hmem
    | opener hlist hmem => exact hopeners _ hlist performative hmem
    | speaker hlist hmem =>
      obtain ⟨name, hname⟩ := OrderedMap.mem_values_iff.mp hlist
      have hentry := OrderedMap.get?_eq_some_iff.mp hname
      exact (hspeakers name _ hentry).2 performative hmem
    | outcome hmem =>
      obtain ⟨name, hfound⟩ := OrderedMap.mem_keys_iff.mp hmem
      exact (houtcomes performative name hfound).1
  case answered => exact hanswered
  case distinctReplies => exact fun replies hmem => (hreplies replies hmem).2
  case terminal => exact hterminal
  case roles => exact ⟨_, _, hroles, hdistinct⟩
  case distinctEndStates =>
    exact (checkEndStates_eq_ok_iff.mp hloaded.distinctEndStates).2
  case opener =>
    obtain ⟨performative, hmem⟩ := List.exists_mem_of_ne_nil _ hsome
    exact ⟨performative, hloaded.mem_initiation_iff.mp hmem⟩
  case speakers =>
    intro name hmem
    obtain ⟨allowed, hfound⟩ := OrderedMap.mem_keys_iff.mp hmem
    rw [hroles]
    exact (hspeakers name allowed (OrderedMap.get?_eq_some_iff.mp hfound)).1
  case outcomes =>
    exact fun performative name hfound => (houtcomes performative name hfound).2

theorem IsLoaded.describes (hloaded : IsLoaded source types specification) :
    source.Describes specification := by
  obtain ⟨hroles, hdistinct⟩ := loadRoles_eq_ok_iff.mp hloaded.roles
  have hreplies : ∀ performative, specification.replies? performative
      = source.reply.get? performative := by
    intro performative
    rw [replies?, hloaded.reply]
  constructor
  case id => exact (loadId_eq_ok_iff.mp hloaded.id).2
  case description => exact hloaded.description
  case performatives => exact hloaded.keys
  case schemas =>
    refine ⟨types, loadCustomTypes_eq_ok_iff.mp hloaded.customTypes, ?_⟩
    exact fun performative contents hcontents => (hloaded.schema hcontents).2.2
  case replies => exact hreplies
  case isReply =>
    intro previous next
    rw [isReply_iff, hreplies]
  case isTerminal =>
    intro performative
    rw [isTerminal_iff, hreplies]
  case isInitiating =>
    intro performative
    rw [isInitiating_iff, hloaded.mem_initiation_iff]
  case initiation =>
    obtain ⟨-, -, hsorted⟩ := loadInitiation_eq_ok_iff.mp hloaded.initiation
    rw [hsorted]
    exact Text.pairwise_sort _
  case roles => exact hroles
  case role =>
    intro name role
    rw [role?]
    by_cases hinitiator : name = specification.initiator
    · cases role <;> simp [hinitiator, roleName, hdistinct]
    · by_cases hresponder : name = specification.responder <;>
        cases role <;>
          simp [hinitiator, hresponder, roleName, Ne.symm hdistinct]
  case maySend =>
    intro role performative
    rw [maySend_iff, hloaded.get?_speakers]
  case endStates => exact hloaded.endStates
  case hasEndState =>
    intro name
    rw [hasEndState_iff, hloaded.endStates, List.mem_map]
    simp
  case outcome => exact hloaded.outcome?

theorem exists_speechActs (hconsistent : source.IsConsistent)
    (htypes : ∀ performative contents,
      source.speechActs.get? performative = some contents →
      ∀ name text, contents.get? name = some text →
        ∃ type, FieldType.parse types text = .ok type) :
    ∃ speechActs,
      source.speechActs.traverse (loadSchema types) = .ok speechActs := by
  apply OrderedMap.exists_traverse
  intro performative contents hentry
  have hfound := OrderedMap.get?_eq_some_iff.mpr hentry
  have hname := hconsistent.performatives performative
    (OrderedMap.mem_keys_iff.mpr ⟨contents, hfound⟩)
  have hnames := hconsistent.contents contents
    (OrderedMap.mem_values_iff.mpr ⟨performative, hfound⟩)
  obtain ⟨schema, hschema⟩ :=
    exists_isSchema (htypes performative contents hfound)
  exact ⟨schema, loadSchema_eq_ok_iff.mpr ⟨hname, hnames, hschema⟩⟩

theorem exists_speakers (hconsistent : source.IsConsistent)
    {initiator responder : String}
    (hroles : source.roles = [initiator, responder]) :
    ∃ speakers, loadSpeakers source.speechActs.keys (initiator, responder) ∅
      source.speakers.entries = .ok speakers := by
  apply exists_loadSpeakers_iff.mpr
  intro name allowed hentry
  have hfound := OrderedMap.get?_eq_some_iff.mpr hentry
  have hmem : name ∈ source.roles :=
    hconsistent.speakers name (OrderedMap.mem_keys_iff.mpr ⟨allowed, hfound⟩)
  have hallowed : allowed ∈ source.speakers.values :=
    OrderedMap.mem_values_iff.mpr ⟨name, hfound⟩
  exact ⟨hroles ▸ hmem, fun performative hsays =>
    hconsistent.declared performative (.speaker hallowed hsays)⟩

theorem exists_outcomes (hconsistent : source.IsConsistent) :
    ∃ outcomes, source.terminalOutcomes.traverse
      (loadOutcome source.speechActs.keys source.reply source.endStates)
        = .ok outcomes := by
  apply OrderedMap.exists_traverse
  intro performative name hentry
  have hfound := OrderedMap.get?_eq_some_iff.mpr hentry
  obtain ⟨hlast, hmem⟩ := hconsistent.outcomes performative name hfound
  have hdeclared : performative ∈ source.speechActs.keys :=
    hconsistent.declared performative
      (.outcome (OrderedMap.mem_keys_iff.mpr ⟨name, hfound⟩))
  exact ⟨⟨name⟩, loadOutcome_eq_ok_iff.mpr ⟨hdeclared, hlast, hmem, rfl⟩⟩

/-- A consistent source passes every check. -/
theorem exists_isLoaded (hconsistent : source.IsConsistent) :
    ∃ types specification, IsLoaded source types specification := by
  obtain ⟨types, hdeclares, htypes⟩ := hconsistent.types
  obtain ⟨initiator, responder, hroles, hdistinct⟩ := hconsistent.roles
  have hdeclared : ∀ {performative}, source.Mentions performative →
      performative ∈ source.speechActs.keys :=
    fun {performative} => hconsistent.declared performative
  obtain ⟨speechActs, hacts⟩ := exists_speechActs hconsistent htypes
  obtain ⟨speakers, hspeakers⟩ := exists_speakers hconsistent hroles
  obtain ⟨outcomes, houtcomes⟩ := exists_outcomes hconsistent
  have hkeys : speechActs.keys = source.speechActs.keys :=
    (OrderedMap.traverse_eq_ok_iff_get?.mp hacts).1
  rw [← hkeys] at hspeakers houtcomes
  let openers := source.initiation.getD (uncalled speechActs.keys source.reply)
  refine ⟨types,
    { id := ⟨source.author, source.name, source.version⟩
      description := source.description
      speechActs, speakers, outcomes, initiator, responder
      reply := source.reply
      endStates := source.endStates.map EndState.mk
      initiation := Text.sort openers }, ?_⟩
  constructor
  case id =>
    exact loadId_eq_ok_iff.mpr
      ⟨⟨Text.isBlank_eq_false_iff.mpr hconsistent.author,
        Text.isBlank_eq_false_iff.mpr hconsistent.name,
        Text.isBlank_eq_false_iff.mpr hconsistent.version⟩, rfl⟩
  case customTypes => exact loadCustomTypes_eq_ok_iff.mpr hdeclares
  case speechActs => exact hacts
  case replyTable =>
    rw [hkeys]
    refine checkReplyTable_eq_ok_iff.mpr ⟨fun performative hmem => ?_,
      fun replies hreplies => ⟨fun next hmem => ?_, ?_⟩,
      hconsistent.answered, hconsistent.terminal⟩
    · exact hdeclared (.entry hmem)
    · exact hdeclared (.reply hreplies hmem)
    · exact hconsistent.distinctReplies replies hreplies
  case roles => exact loadRoles_eq_ok_iff.mpr ⟨hroles, hdistinct⟩
  case distinctEndStates =>
    exact checkEndStates_eq_ok_iff.mpr
      ⟨fun _ _ => List.not_mem_nil, hconsistent.distinctEndStates⟩
  case initiation =>
    refine loadInitiation_eq_ok_iff.mpr ⟨?_, ?_, rfl⟩
    · intro listed hlisted performative hmem
      rw [hkeys]
      exact hdeclared (.opener hlisted hmem)
    · obtain ⟨performative, hopens⟩ := hconsistent.opener
      rw [← opens_iff, ← hkeys, ← Text.mem_sort_iff] at hopens
      exact List.ne_nil_of_mem hopens
  case speakers => exact hspeakers
  case outcomes => exact houtcomes
  case description => rfl
  case reply => rfl
  case endStates => rfl

end Sources

/-- A source is loaded if and only if it is consistent, and what the loaded
specification answers is what the source says. -/
theorem load_iff_isConsistent (source : Source) :
    ((∃ specification, load source = .ok specification) ↔ source.IsConsistent)
      ∧ ∀ specification, load source = .ok specification →
        source.Describes specification := by
  refine ⟨⟨fun ⟨specification, hload⟩ => ?_, fun hconsistent => ?_⟩,
    fun specification hload => ?_⟩
  · obtain ⟨types, hloaded⟩ := load_eq_ok_iff.mp hload
    exact hloaded.isConsistent
  · obtain ⟨types, specification, hloaded⟩ := exists_isLoaded hconsistent
    exact ⟨specification, load_eq_ok_iff.mpr ⟨types, hloaded⟩⟩
  · obtain ⟨types, hloaded⟩ := load_eq_ok_iff.mp hload
    exact hloaded.describes

end Specification

end Colloquy
