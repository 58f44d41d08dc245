import Colloquy.Negotiation.Specification
import Colloquy.Proofs.Registry.Effect

/-!
# The index of a registry

A registry finds its dialogues through two maps: the dialogues by their labels,
and the earlier names of those whose label is complete.  Main statement: in
every registry that can be reached the second map is a function of the first,
no two dialogues are confused, and a dialogue is found under its label and
under the label before that was complete.
-/

namespace Colloquy

/-- The half that the local agent chose for a dialogue. -/
def Dialogue.ownHalf (dialogue : Dialogue) : String :=
  match dialogue.role with
  | .initiator => dialogue.label.reference.initiator
  | .responder => dialogue.label.reference.responder

namespace Registry

/-- A dialogue is held under a label. -/
def Holds (registry : Registry) (key : Label) (dialogue : Dialogue) : Prop :=
  registry.dialogues.get? key = some dialogue

/-- How the two maps of a registry belong together. -/
structure Indexed (registry : Registry) : Prop where
  label_eq : ∀ {key dialogue}, registry.Holds key dialogue →
    dialogue.label = key
  self_eq : ∀ {key dialogue}, registry.Holds key dialogue →
    key.self = registry.address
  opponent_ne : ∀ {key dialogue}, registry.Holds key dialogue →
    key.opponent ≠ registry.address
  initiator_ne : ∀ {key dialogue}, registry.Holds key dialogue →
    key.reference.initiator ≠ unassigned
  /-- The initiator half and the opponent name a conversation. -/
  unique : ∀ {key other dialogue another}, registry.Holds key dialogue →
    registry.Holds other another →
    key.reference.initiator = other.reference.initiator →
    key.opponent = other.opponent → key = other
  /-- No half is chosen twice. -/
  ownHalf_inj : ∀ {key other dialogue another}, registry.Holds key dialogue →
    registry.Holds other another → dialogue.ownHalf = another.ownHalf →
    key = other
  /-- The earlier names are those of the complete labels, and no others. -/
  completed_iff : ∀ {name key}, registry.completed.get? name = some key ↔
    key.isComplete = true ∧ name = key.incomplete
      ∧ ∃ dialogue, registry.Holds key dialogue

/-- What holds of the two maps whatever messages are handed over: a dialogue
carries the label it is held under, and an earlier name belongs to the same
conversation as the label it stands for. -/
structure Keyed (registry : Registry) : Prop where
  label_eq : ∀ {key dialogue}, registry.Holds key dialogue →
    dialogue.label = key
  incomplete_eq : ∀ {name key}, registry.completed.get? name = some key →
    key.incomplete = name.incomplete

theorem Indexed.keyed {registry : Registry} (hindexed : registry.Indexed) :
    registry.Keyed where
  label_eq hheld := hindexed.label_eq hheld
  incomplete_eq hname := by
    obtain ⟨-, rfl, -⟩ := hindexed.completed_iff.mp hname
    rfl

/-! ## What is held after a change -/

section Holds

variable {registry : Registry} {key other : Label} {dialogue another : Dialogue}

theorem Holds.eq (hheld : registry.Holds key dialogue)
    (hother : registry.Holds key another) : dialogue = another :=
  Option.some.inj (hheld.symm.trans hother)

theorem contains_iff_exists_holds :
    registry.dialogues.contains key = true ↔
      ∃ dialogue, registry.Holds key dialogue :=
  OrderedMap.contains_iff_exists

theorem not_holds_of_not_contains
    (habsent : registry.dialogues.contains key = false) (dialogue : Dialogue) :
    ¬ registry.Holds key dialogue := by
  intro hheld
  have hcontains := contains_iff_exists_holds.mpr ⟨dialogue, hheld⟩
  rw [habsent] at hcontains
  cases hcontains

theorem not_holds_empty {specification : Specification} {address : Address}
    {limits : Limits} :
    ¬ (empty specification address limits).Holds key dialogue := by
  simp [Holds, empty]

theorem holds_hold_iff :
    (registry.hold key dialogue).Holds other another ↔
      other = key ∧ another = dialogue
        ∨ other ≠ key ∧ registry.Holds other another := by
  rw [Holds, hold, OrderedMap.get?_set, Holds]
  by_cases hkey : other = key <;> simp [hkey, eq_comm]

theorem holds_evictEnded_iff :
    registry.evictEnded.Holds key dialogue ↔
      registry.Holds key dialogue ∧ dialogue.isEnded = false := by
  rw [Holds, evictEnded, OrderedMap.get?_filter, Option.filter_eq_some_iff,
    Holds]
  simp

/-- A name is dropped together with the dialogue that it stands for. -/
theorem completed_evictEnded_eq_some_iff {name : Label} :
    registry.evictEnded.completed.get? name = some key ↔
      registry.completed.get? name = some key
        ∧ ∃ dialogue, registry.evictEnded.Holds key dialogue := by
  rw [evictEnded, OrderedMap.get?_filter, Option.filter_eq_some_iff]
  exact and_congr_right fun _ => OrderedMap.contains_iff_exists

theorem completed_evictEnded_of_eq_none {name : Label}
    (hname : registry.completed.get? name = none) :
    registry.evictEnded.completed.get? name = none := by
  rw [evictEnded, OrderedMap.get?_filter, hname, Option.filter_none]

theorem holds_rekey_iff {complete : Label} :
    (registry.rekey dialogue complete).Holds other another ↔
      other = complete ∧ another = dialogue.relabel complete
        ∨ other ≠ complete ∧ other ≠ dialogue.label
          ∧ registry.Holds other another := by
  rw [Holds, rekey, addName, OrderedMap.get?_set, OrderedMap.get?_erase, Holds]
  by_cases hcomplete : other = complete <;>
    by_cases hkey : other = dialogue.label <;> simp [hcomplete, hkey, eq_comm]

/-- A dialogue has moved from its label to the complete one and gone on there. -/
theorem holds_completed_iff {complete : Label} {next : Dialogue}
    (hlabel : dialogue.label = key) :
    ((registry.rekey dialogue complete).hold complete next).Holds other
        another ↔
      other = complete ∧ another = next
        ∨ other ≠ complete ∧ other ≠ key ∧ registry.Holds other another := by
  subst hlabel
  rw [holds_hold_iff, holds_rekey_iff]
  by_cases hcomplete : other = complete <;> simp [hcomplete]

/-- The registry without the dialogue under a label. -/
def drop (registry : Registry) (key : Label) : Registry :=
  { registry with dialogues := registry.dialogues.erase key }

theorem holds_drop_iff :
    (registry.drop key).Holds other another ↔
      other ≠ key ∧ registry.Holds other another := by
  rw [Holds, drop, OrderedMap.get?_erase, Holds]
  by_cases hkey : other = key <;> simp [hkey]

theorem mem_usedHalves_of_holds (hheld : registry.Holds key dialogue) :
    key.reference.initiator ∈ registry.usedHalves
      ∧ key.reference.responder ∈ registry.usedHalves := by
  have hmem : key ∈ registry.dialogues.keys :=
    OrderedMap.contains_iff_mem.mp (contains_iff_exists_holds.mpr ⟨_, hheld⟩)
  rw [usedHalves, List.mem_flatMap, List.mem_flatMap]
  exact ⟨⟨key, hmem, by simp⟩, ⟨key, hmem, by simp⟩⟩

/-- No dialogue is held under a label with a half that none uses. -/
theorem not_holds_of_unused
    (hunused : key.reference.initiator ∉ registry.usedHalves
      ∨ key.reference.responder ∉ registry.usedHalves) (dialogue : Dialogue) :
    ¬ registry.Holds key dialogue := by
  intro hheld
  obtain ⟨hinitiator, hresponder⟩ := mem_usedHalves_of_holds hheld
  rcases hunused with hnew | hnew
  · exact hnew hinitiator
  · exact hnew hresponder

end Holds

/-! ## Looking up -/

section Find

variable {registry : Registry} {key label : Label} {dialogue : Dialogue}

theorem find?_eq_some_iff_resolve? :
    registry.find? label = some (key, dialogue) ↔
      registry.resolve? label = some key ∧ registry.Holds key dialogue := by
  simp only [find?, Option.bind_eq_bind, Option.bind_eq_some_iff,
    Option.some.injEq, Prod.mk.injEq, Holds]
  constructor
  · rintro ⟨_, hresolve, _, hheld, rfl, rfl⟩
    exact ⟨hresolve, hheld⟩
  · rintro ⟨hresolve, hheld⟩
    exact ⟨key, hresolve, dialogue, hheld, rfl, rfl⟩

/-- A label leads to what it stands for, or else to what the label before it was
complete stands for. -/
theorem resolve?_eq_some_iff :
    registry.resolve? label = some key ↔
      registry.dialogues.contains key = true
        ∧ (registry.current label = key
          ∨ label.isComplete = true
            ∧ ¬ registry.dialogues.contains (registry.current label) = true
            ∧ registry.current label.incomplete = key) := by
  simp only [resolve?]
  by_cases hdirect : registry.dialogues.contains (registry.current label) = true
  · simp only [hdirect, if_true, Option.some.injEq, not_true_eq_false,
      false_and, and_false, or_false]
    constructor
    · intro hcurrent
      exact ⟨hcurrent ▸ hdirect, hcurrent⟩
    · exact And.right
  · rw [if_neg hdirect]
    constructor
    · intro hearlier
      split at hearlier
      · rename_i hcomplete
        split at hearlier
        · rename_i hcontains
          cases hearlier
          exact ⟨hcontains, Or.inr ⟨hcomplete, hdirect, rfl⟩⟩
        · cases hearlier
      · cases hearlier
    · intro hleads
      obtain ⟨hcontains, hsame | ⟨hcomplete, -, hearlier⟩⟩ := hleads
      · exact absurd (hsame ▸ hcontains) hdirect
      · rw [if_pos hcomplete, hearlier, if_pos hcontains]

/-- A label finds a dialogue still that it found, if the dialogue is held, what
stood for its label stands for it, and nothing has come between. -/
theorem find?_of_find? {later : Registry} {next : Dialogue}
    (hfound : registry.find? label = some (key, dialogue))
    (hheld : later.Holds key next)
    (hcurrent : ∀ {name}, registry.current name = key →
      later.current name = key)
    (habsent : registry.current label.incomplete = key →
      ¬ registry.dialogues.contains (registry.current label) = true →
      ¬ later.dialogues.contains (later.current label) = true) :
    later.find? label = some (key, next) := by
  have hresolve := (find?_eq_some_iff_resolve?.mp hfound).1
  obtain ⟨-, hleads⟩ := resolve?_eq_some_iff.mp hresolve
  have hcontains := contains_iff_exists_holds.mpr ⟨next, hheld⟩
  apply find?_eq_some_iff_resolve?.mpr
  refine ⟨resolve?_eq_some_iff.mpr ⟨hcontains, ?_⟩, hheld⟩
  cases hleads with
  | inl hdirect => exact Or.inl (hcurrent hdirect)
  | inr hearlier =>
    obtain ⟨hcomplete, hnot, hbefore⟩ := hearlier
    exact Or.inr ⟨hcomplete, habsent hbefore hnot, hcurrent hbefore⟩

/-- A label that stands for a dialogue that is kept stands for it still. -/
theorem current_evictEnded
    (hkept : registry.evictEnded.dialogues.contains (registry.current label)
      = true) :
    registry.evictEnded.current label = registry.current label := by
  rw [current] at hkept
  rw [current, current]
  cases hname : registry.completed.get? label with
  | none => rw [completed_evictEnded_of_eq_none hname]
  | some key =>
    rw [hname, Option.getD_some] at hkept
    rw [completed_evictEnded_eq_some_iff.mpr
      ⟨hname, contains_iff_exists_holds.mp hkept⟩]

theorem incomplete_current (hkeyed : registry.Keyed) (label : Label) :
    (registry.current label).incomplete = label.incomplete := by
  rw [current]
  cases hname : registry.completed.get? label with
  | none => rfl
  | some key => exact hkeyed.incomplete_eq hname

theorem incomplete_of_resolve? (hkeyed : registry.Keyed)
    (hresolve : registry.resolve? label = some key) :
    key.incomplete = label.incomplete := by
  obtain ⟨-, hdirect | ⟨-, -, hearlier⟩⟩ := resolve?_eq_some_iff.mp hresolve
  · rw [← hdirect]
    exact incomplete_current hkeyed label
  · rw [← hearlier]
    exact incomplete_current hkeyed label.incomplete

/-- What a label finds is held, and belongs to the conversation that the label
names. -/
theorem Keyed.holds_of_find? (hkeyed : registry.Keyed)
    (hfound : registry.find? label = some (key, dialogue)) :
    registry.Holds key dialogue ∧ key.incomplete = label.incomplete := by
  obtain ⟨hresolve, hheld⟩ := find?_eq_some_iff_resolve?.mp hfound
  exact ⟨hheld, incomplete_of_resolve? hkeyed hresolve⟩

theorem eq_of_incomplete_eq {other : Label} {another : Dialogue}
    (hindexed : registry.Indexed) (hheld : registry.Holds key dialogue)
    (hother : registry.Holds other another)
    (hincomplete : key.incomplete = other.incomplete) : key = other := by
  obtain ⟨hinitiator, -, hopponent⟩ := Label.incomplete_eq_iff.mp hincomplete
  exact hindexed.unique hheld hother hinitiator hopponent

/-- A label that is held is not an earlier name. -/
theorem completed_of_holds (hindexed : registry.Indexed)
    (hheld : registry.Holds key dialogue) :
    registry.completed.get? key = none := by
  refine Option.eq_none_iff_forall_ne_some.mpr fun target hname => ?_
  obtain ⟨hcomplete, hkey, another, hother⟩ := hindexed.completed_iff.mp hname
  have heq := eq_of_incomplete_eq hindexed hother hheld (by rw [hkey]; rfl)
  exact Label.incomplete_ne_of_isComplete hcomplete (hkey.symm.trans heq.symm)

theorem current_of_holds (hindexed : registry.Indexed)
    (hheld : registry.Holds key dialogue) : registry.current key = key := by
  rw [current, completed_of_holds hindexed hheld, Option.getD_none]

theorem current_incomplete (hindexed : registry.Indexed)
    (hheld : registry.Holds key dialogue) :
    registry.current key.incomplete = key := by
  by_cases hcomplete : key.isComplete = true
  · have hname : registry.completed.get? key.incomplete = some key :=
      hindexed.completed_iff.mpr ⟨hcomplete, rfl, dialogue, hheld⟩
    rw [current, hname, Option.getD_some]
  · rw [Bool.not_eq_true] at hcomplete
    rw [Label.incomplete_of_not_isComplete hcomplete
      (hindexed.initiator_ne hheld), current_of_holds hindexed hheld]

/-- If a dialogue is found through the label before that was complete, and is the
only one of its conversation, then every label of that conversation finds it. -/
theorem find?_of_current (hkeyed : registry.Keyed)
    (hheld : registry.Holds key dialogue)
    (hunique : ∀ {other another}, registry.Holds other another →
      other.incomplete = key.incomplete → other = key)
    (hcurrent : registry.current key.incomplete = key)
    (hnamed : label.reference.initiator ≠ unassigned)
    (hsame : key.incomplete = label.incomplete) :
    registry.find? label = some (key, dialogue) := by
  refine find?_eq_some_iff_resolve?.mpr ⟨?_, hheld⟩
  rw [hsame] at hcurrent
  have hcontains : registry.dialogues.contains key = true :=
    contains_iff_exists_holds.mpr ⟨dialogue, hheld⟩
  simp only [resolve?]
  split
  · rename_i hdirect
    obtain ⟨another, hother⟩ := contains_iff_exists_holds.mp hdirect
    rw [hunique hother ((incomplete_current hkeyed label).trans hsame.symm)]
  · rename_i hdirect
    have hcomplete : label.isComplete = true := by
      refine Classical.byContradiction fun hnot => hdirect ?_
      rw [Bool.not_eq_true] at hnot
      rw [Label.incomplete_of_not_isComplete hnot hnamed] at hcurrent
      rw [hcurrent, hcontains]
    rw [if_pos hcomplete, hcurrent, if_pos hcontains]

/-- A label finds the dialogue that was opened under the same initiator half
between the same agents, and no other one. -/
theorem find?_eq_some_iff (hindexed : registry.Indexed) :
    registry.find? label = some (key, dialogue) ↔
      registry.Holds key dialogue ∧ key.incomplete = label.incomplete := by
  constructor
  · exact hindexed.keyed.holds_of_find?
  · rintro ⟨hheld, hsame⟩
    apply find?_of_current hindexed.keyed hheld _
      (current_incomplete hindexed hheld) _ hsame
    · intro other another hother hincomplete
      exact eq_of_incomplete_eq hindexed hother hheld hincomplete
    · rw [← (Label.incomplete_eq_iff.mp hsame).1]
      exact hindexed.initiator_ne hheld

theorem find?_eq_none_iff (hindexed : registry.Indexed) :
    registry.find? label = none ↔ ∀ key dialogue,
      registry.Holds key dialogue → key.incomplete ≠ label.incomplete := by
  rw [Option.eq_none_iff_forall_ne_some]
  constructor
  · intro hnone key dialogue hheld hincomplete
    exact hnone (key, dialogue)
      ((find?_eq_some_iff hindexed).mpr ⟨hheld, hincomplete⟩)
  · rintro hnone ⟨key, dialogue⟩ hfound
    obtain ⟨hheld, hincomplete⟩ := (find?_eq_some_iff hindexed).mp hfound
    exact hnone key dialogue hheld hincomplete

/-- A dialogue is found under its label and under the label before that was
complete. -/
theorem dialogue?_of_holds (hindexed : registry.Indexed)
    (hheld : registry.Holds key dialogue) :
    registry.dialogue? key = some dialogue
      ∧ registry.dialogue? key.incomplete = some dialogue := by
  have hdirect := (find?_eq_some_iff hindexed).mpr ⟨hheld, rfl⟩
  have hearlier : registry.find? key.incomplete = some (key, dialogue) :=
    (find?_eq_some_iff hindexed).mpr
      ⟨hheld, (Label.incomplete_incomplete key).symm⟩
  rw [dialogue?, dialogue?, hdirect, hearlier]
  exact ⟨rfl, rfl⟩

end Find

/-! ## Changes of the index -/

section Changes

variable {registry before after : Registry} {key : Label} {dialogue : Dialogue}

theorem indexed_empty (specification : Specification) (address : Address)
    (limits : Limits) : (empty specification address limits).Indexed where
  label_eq hheld := absurd hheld not_holds_empty
  self_eq hheld := absurd hheld not_holds_empty
  opponent_ne hheld := absurd hheld not_holds_empty
  initiator_ne hheld := absurd hheld not_holds_empty
  unique hheld := absurd hheld not_holds_empty
  ownHalf_inj hheld := absurd hheld not_holds_empty
  completed_iff := by
    intro name key
    constructor
    · intro hname
      simp [empty] at hname
    · rintro ⟨-, -, dialogue, hheld⟩
      exact absurd hheld not_holds_empty

theorem Indexed.withStats (hindexed : registry.Indexed) (stats : Stats) :
    ({ registry with stats } : Registry).Indexed :=
  ⟨hindexed.label_eq, hindexed.self_eq, hindexed.opponent_ne,
    hindexed.initiator_ne, hindexed.unique, hindexed.ownHalf_inj,
    hindexed.completed_iff⟩

theorem Indexed.ownHalf_mem (hindexed : registry.Indexed)
    (hheld : registry.Holds key dialogue) :
    dialogue.ownHalf ∈ registry.usedHalves := by
  obtain ⟨hinitiator, hresponder⟩ := mem_usedHalves_of_holds hheld
  rw [Dialogue.ownHalf, hindexed.label_eq hheld]
  cases dialogue.role with
  | initiator => exact hinitiator
  | responder => exact hresponder

/-- Dialogues may be dropped together with their earlier names. -/
theorem Indexed.restrict (hindexed : before.Indexed)
    (haddress : after.address = before.address)
    (hheld : ∀ {key dialogue}, after.Holds key dialogue →
      before.Holds key dialogue)
    (hnames : ∀ {name key}, after.completed.get? name = some key ↔
      before.completed.get? name = some key
        ∧ ∃ dialogue, after.Holds key dialogue) : after.Indexed where
  label_eq hafter := hindexed.label_eq (hheld hafter)
  self_eq hafter := haddress ▸ hindexed.self_eq (hheld hafter)
  opponent_ne hafter := haddress ▸ hindexed.opponent_ne (hheld hafter)
  initiator_ne hafter := hindexed.initiator_ne (hheld hafter)
  unique hafter hother := hindexed.unique (hheld hafter) (hheld hother)
  ownHalf_inj hafter hother :=
    hindexed.ownHalf_inj (hheld hafter) (hheld hother)
  completed_iff := by
    intro name key
    rw [hnames, hindexed.completed_iff]
    constructor
    · rintro ⟨⟨hcomplete, hname, -⟩, hafter⟩
      exact ⟨hcomplete, hname, hafter⟩
    · rintro ⟨hcomplete, hname, dialogue, hafter⟩
      exact ⟨⟨hcomplete, hname, dialogue, hheld hafter⟩, dialogue, hafter⟩

theorem Indexed.evictEnded (hindexed : registry.Indexed) :
    registry.evictEnded.Indexed :=
  hindexed.restrict rfl (fun hafter => (holds_evictEnded_iff.mp hafter).1)
    completed_evictEnded_eq_some_iff

/-- A dialogue may be replaced by another with the same label and role. -/
theorem Indexed.hold (hindexed : registry.Indexed) {next : Dialogue}
    (hheld : registry.Holds key dialogue)
    (hlabel : next.label = dialogue.label) (hrole : next.role = dialogue.role) :
    (registry.hold key next).Indexed := by
  have hown : next.ownHalf = dialogue.ownHalf := by
    rw [Dialogue.ownHalf, hlabel, hrole, Dialogue.ownHalf]
  -- Every dialogue held afterwards stands for one held before.
  have hbefore : ∀ {other another}, (registry.hold key next).Holds other another →
      ∃ earlier, registry.Holds other earlier
        ∧ another.label = earlier.label
        ∧ another.ownHalf = earlier.ownHalf := by
    intro other another hafter
    rcases holds_hold_iff.mp hafter with ⟨rfl, rfl⟩ | ⟨-, hother⟩
    · exact ⟨dialogue, hheld, hlabel, hown⟩
    · exact ⟨another, hother, rfl, rfl⟩
  constructor
  case label_eq =>
    intro other another hafter
    obtain ⟨earlier, hearlier, hsame, -⟩ := hbefore hafter
    rw [hsame, hindexed.label_eq hearlier]
  case self_eq =>
    intro other another hafter
    obtain ⟨earlier, hearlier, -⟩ := hbefore hafter
    exact hindexed.self_eq hearlier
  case opponent_ne =>
    intro other another hafter
    obtain ⟨earlier, hearlier, -⟩ := hbefore hafter
    exact hindexed.opponent_ne hearlier
  case initiator_ne =>
    intro other another hafter
    obtain ⟨earlier, hearlier, -⟩ := hbefore hafter
    exact hindexed.initiator_ne hearlier
  case unique =>
    intro left right _ _ hleft hright
    obtain ⟨_, hearlier, -⟩ := hbefore hleft
    obtain ⟨_, hlater, -⟩ := hbefore hright
    exact hindexed.unique hearlier hlater
  case ownHalf_inj =>
    intro left right _ _ hleft hright hsame
    obtain ⟨_, hearlier, -, hfirst⟩ := hbefore hleft
    obtain ⟨_, hlater, -, hsecond⟩ := hbefore hright
    rw [hfirst, hsecond] at hsame
    exact hindexed.ownHalf_inj hearlier hlater hsame
  case completed_iff =>
    intro name target
    rw [Registry.hold, hindexed.completed_iff]
    refine and_congr_right fun _ => and_congr_right fun _ => ?_
    constructor
    · rintro ⟨another, hother⟩
      by_cases htarget : target = key
      · exact ⟨next, holds_hold_iff.mpr (Or.inl ⟨htarget, rfl⟩)⟩
      · exact ⟨another, holds_hold_iff.mpr (Or.inr ⟨htarget, hother⟩)⟩
    · rintro ⟨another, hafter⟩
      obtain ⟨earlier, hearlier, -⟩ := hbefore hafter
      exact ⟨earlier, hearlier⟩

/-- A dialogue may be added that no label held before stands for, with a half
that was not chosen before; if its label is complete, so may the earlier
name. -/
theorem Indexed.extend (hindexed : before.Indexed)
    (haddress : after.address = before.address)
    (hheld : ∀ {other another}, after.Holds other another ↔
      other = key ∧ another = dialogue
        ∨ other ≠ key ∧ before.Holds other another)
    (hnames : ∀ {name target}, after.completed.get? name = some target ↔
      (key.isComplete = true ∧ name = key.incomplete ∧ target = key)
        ∨ name ≠ key.incomplete ∧ before.completed.get? name = some target)
    (hlabel : dialogue.label = key) (hself : key.self = before.address)
    (hopponent : key.opponent ≠ before.address)
    (hinitiator : key.reference.initiator ≠ unassigned)
    (hnew : ∀ {other another}, before.Holds other another →
      other.incomplete ≠ key.incomplete)
    (hown : ∀ {other another}, before.Holds other another →
      another.ownHalf ≠ dialogue.ownHalf) : after.Indexed where
  label_eq hafter := by
    rcases hheld.mp hafter with ⟨rfl, rfl⟩ | ⟨-, hother⟩
    · exact hlabel
    · exact hindexed.label_eq hother
  self_eq hafter := by
    rcases hheld.mp hafter with ⟨rfl, rfl⟩ | ⟨-, hother⟩
    · rw [haddress, hself]
    · rw [haddress, hindexed.self_eq hother]
  opponent_ne hafter := by
    rcases hheld.mp hafter with ⟨rfl, rfl⟩ | ⟨-, hother⟩
    · rw [haddress]
      exact hopponent
    · rw [haddress]
      exact hindexed.opponent_ne hother
  initiator_ne hafter := by
    rcases hheld.mp hafter with ⟨rfl, rfl⟩ | ⟨-, hother⟩
    · exact hinitiator
    · exact hindexed.initiator_ne hother
  unique hleft hright hhalf hsame := by
    rcases hheld.mp hleft with ⟨rfl, rfl⟩ | ⟨-, hfirst⟩ <;>
      rcases hheld.mp hright with ⟨rfl, rfl⟩ | ⟨-, hsecond⟩
    · rfl
    · refine absurd ?_ (hnew hsecond)
      exact Label.incomplete_eq_iff.mpr
        ⟨hhalf.symm, (hindexed.self_eq hsecond).trans hself.symm, hsame.symm⟩
    · refine absurd ?_ (hnew hfirst)
      exact Label.incomplete_eq_iff.mpr
        ⟨hhalf, (hindexed.self_eq hfirst).trans hself.symm, hsame⟩
    · exact hindexed.unique hfirst hsecond hhalf hsame
  ownHalf_inj hleft hright hsame := by
    rcases hheld.mp hleft with ⟨rfl, rfl⟩ | ⟨-, hfirst⟩ <;>
      rcases hheld.mp hright with ⟨rfl, rfl⟩ | ⟨-, hsecond⟩
    · rfl
    · exact absurd hsame.symm (hown hsecond)
    · exact absurd hsame (hown hfirst)
    · exact hindexed.ownHalf_inj hfirst hsecond hsame
  completed_iff := by
    intro name target
    rw [hnames, hindexed.completed_iff]
    constructor
    · rintro (⟨hcomplete, rfl, rfl⟩ | ⟨-, hcomplete, hname, another, hother⟩)
      · exact ⟨hcomplete, rfl, dialogue, hheld.mpr (Or.inl ⟨rfl, rfl⟩)⟩
      · have hne : target ≠ key := by
          rintro rfl
          exact hnew hother rfl
        exact ⟨hcomplete, hname, another, hheld.mpr (Or.inr ⟨hne, hother⟩)⟩
    · rintro ⟨hcomplete, rfl, another, hafter⟩
      rcases hheld.mp hafter with ⟨rfl, rfl⟩ | ⟨-, hother⟩
      · exact Or.inl ⟨hcomplete, rfl, rfl⟩
      · exact Or.inr ⟨hnew hother, hcomplete, rfl, another, hother⟩

end Changes

/-! ## Reachable registries -/

section Runs

variable {before after base registry : Registry} {event : Event}

theorem Indexed.makeRoom (hindexed : before.Indexed)
    (hroom : before.makeRoom = (.ok (), base)) : base.Indexed := by
  rcases eq_of_makeRoom_ok hroom with rfl | rfl
  · exact hindexed
  · exact hindexed.evictEnded

/-- Making room takes nothing in. -/
theorem holds_of_makeRoom {key : Label} {dialogue : Dialogue}
    (hroom : before.makeRoom = (.ok (), base))
    (hheld : base.Holds key dialogue) : before.Holds key dialogue := by
  rcases eq_of_makeRoom_ok hroom with rfl | rfl
  · exact hheld
  · exact (holds_evictEnded_iff.mp hheld).1

theorem fit_eq_completes_iff {dialogue : Dialogue} {theirs : Reference} :
    fit dialogue theirs = .completes ↔
      dialogue.label.isComplete = false ∧ dialogue.role = .initiator
        ∧ theirs.isComplete = true
        ∧ theirs.initiator = dialogue.label.reference.initiator := by
  simp only [fit, Label.isComplete]
  cases dialogue.label.reference.isComplete with
  | true =>
    simp only [if_true, Bool.true_eq_false, false_and, iff_false]
    split
    · simp
    · split <;> simp
  | false =>
    simp only [Bool.false_eq_true, if_false, true_and]
    split <;> simp_all

theorem fit_eq_same_iff {dialogue : Dialogue} {theirs : Reference} :
    fit dialogue theirs = .same ↔
      dialogue.label.isComplete = true
        ∧ (theirs = dialogue.label.reference
          ∨ dialogue.role = .responder
            ∧ theirs = dialogue.label.reference.opening
            ∧ dialogue.lastOutgoing? = none) := by
  simp only [fit, Label.isComplete]
  cases dialogue.label.reference.isComplete with
  | false =>
    simp only [Bool.false_eq_true, if_false, false_and, iff_false]
    split <;> simp
  | true =>
    simp only [if_true, true_and, Option.isNone_iff_eq_none]
    split
    · rename_i hours
      simp [hours]
    · rename_i hours
      split
      · rename_i hopening
        simp [hopening]
      · rename_i hopening
        simp [hours, hopening]

/-- A fresh half makes a label that nothing held stands for. -/
theorem incomplete_ne_of_fresh {half : String} {key other : Label}
    {dialogue : Dialogue} (hfresh : half ∉ registry.usedHalves)
    (hhalf : key.reference.initiator = half)
    (hheld : registry.Holds other dialogue) :
    other.incomplete ≠ key.incomplete := by
  intro hincomplete
  refine hfresh ?_
  rw [← hhalf, ← (Label.incomplete_eq_iff.mp hincomplete).1]
  exact (mem_usedHalves_of_holds hheld).1

theorem Indexed.ownHalf_ne_of_fresh (hindexed : registry.Indexed)
    {half : String} {key : Label} {dialogue : Dialogue}
    (hfresh : half ∉ registry.usedHalves)
    (hheld : registry.Holds key dialogue) : dialogue.ownHalf ≠ half := by
  rintro rfl
  exact hfresh (hindexed.ownHalf_mem hheld)

/-- Earlier names belong to labels that are held. -/
theorem Indexed.name_ne (hindexed : registry.Indexed) {key name target : Label}
    (hnew : ∀ {other another}, registry.Holds other another →
      other.incomplete ≠ key.incomplete)
    (hname : registry.completed.get? name = some target) :
    name ≠ key.incomplete := by
  obtain ⟨-, rfl, another, hother⟩ := hindexed.completed_iff.mp hname
  exact hnew hother

theorem Indexed.opened (hindexed : registry.Indexed) {half : String}
    {opponent : Address} {key : Label} {dialogue : Dialogue}
    (hfresh : half ∉ registry.usedHalves) (hhalf : half ≠ unassigned)
    (hopponent : opponent ≠ registry.address)
    (hkey : key = ⟨.opened half, registry.address, opponent⟩)
    (hlabel : dialogue.label = key) (hrole : dialogue.role = .initiator) :
    (registry.hold key dialogue).Indexed := by
  have hown : dialogue.ownHalf = half := by
    rw [Dialogue.ownHalf, hrole, hlabel, hkey]
    rfl
  have hincomplete : key.isComplete = false := by
    rw [hkey, Label.isComplete, Reference.isComplete_opened]
  have hnew : ∀ {other another}, registry.Holds other another →
      other.incomplete ≠ key.incomplete :=
    fun hheld => incomplete_ne_of_fresh hfresh (by rw [hkey]; rfl) hheld
  refine hindexed.extend rfl holds_hold_iff ?_ hlabel (by rw [hkey])
    (by rw [hkey]; exact hopponent) (by rw [hkey]; exact hhalf) hnew ?_
  · intro name target
    rw [hincomplete, Registry.hold]
    constructor
    · intro hname
      exact Or.inr ⟨hindexed.name_ne hnew hname, hname⟩
    · rintro (⟨hfalse, -⟩ | ⟨-, hname⟩)
      · cases hfalse
      · exact hname
  · intro other another hheld
    rw [hown]
    exact hindexed.ownHalf_ne_of_fresh hfresh hheld

theorem Indexed.admitted (hindexed : registry.Indexed) {half : String}
    {key label : Label} {dialogue : Dialogue}
    (hfresh : half ∉ registry.usedHalves) (hhalf : half ≠ unassigned)
    (hself : label.self = registry.address)
    (hopponent : label.opponent ≠ registry.address)
    (hinitiator : label.reference.initiator ≠ unassigned)
    (hincomplete : label.isComplete = false)
    (hnew : ∀ {other another}, registry.Holds other another →
      other.incomplete ≠ label.incomplete)
    (hkey : key = label.withReference (label.reference.withResponder half))
    (hlabel : dialogue.label = key) (hrole : dialogue.role = .responder) :
    ((registry.hold key dialogue).addName label key).Indexed := by
  have hown : dialogue.ownHalf = half := by
    rw [Dialogue.ownHalf, hrole, hlabel, hkey]
    rfl
  have hcomplete : key.isComplete = true := by
    rw [hkey]
    exact Reference.isComplete_iff.mpr ⟨hinitiator, hhalf⟩
  have hname : key.incomplete = label := by
    rw [← Label.incomplete_of_not_isComplete hincomplete hinitiator, hkey]
    rfl
  have hsame : key.incomplete = label.incomplete := by
    rw [hkey]
    rfl
  refine hindexed.extend rfl holds_hold_iff ?_ hlabel
    (by rw [hkey]; exact hself) (by rw [hkey]; exact hopponent)
    (by rw [hkey]; exact hinitiator) (hsame ▸ hnew) ?_
  · intro name target
    rw [hcomplete, hname, addName, Registry.hold, OrderedMap.get?_set]
    by_cases hlabel : name = label
    · simp [hlabel, eq_comm]
    · simp [hlabel]
  · intro other another hheld
    rw [hown]
    exact hindexed.ownHalf_ne_of_fresh hfresh hheld

/-- No name leads to a dialogue whose label is incomplete, so that it can be
dropped alone. -/
theorem Indexed.drop (hindexed : registry.Indexed) {key : Label}
    (hincomplete : key.isComplete = false) : (registry.drop key).Indexed := by
  refine hindexed.restrict rfl (fun hafter => (holds_drop_iff.mp hafter).2) ?_
  intro name target
  constructor
  · intro hname
    obtain ⟨hcomplete, -, another, hother⟩ := hindexed.completed_iff.mp hname
    refine ⟨hname, another, holds_drop_iff.mpr ⟨?_, hother⟩⟩
    rintro rfl
    rw [hincomplete] at hcomplete
    cases hcomplete
  · exact fun hname => hname.1

theorem Indexed.completed (hindexed : registry.Indexed) {key complete : Label}
    {dialogue next : Dialogue} {theirs : Reference}
    (hheld : registry.Holds key dialogue)
    (hfit : fit dialogue theirs = .completes)
    (hcomplete : complete = dialogue.label.withReference theirs)
    (hlabel : next.label = complete) (hrole : next.role = dialogue.role) :
    ((registry.rekey dialogue complete).hold complete next).Indexed := by
  obtain ⟨hopen, hinitiator, htheirs, hhalf⟩ := fit_eq_completes_iff.mp hfit
  have hkey := hindexed.label_eq hheld
  rw [hkey] at hopen hcomplete hhalf
  have hsame : complete.incomplete = key.incomplete := by
    rw [hcomplete]
    exact Label.incomplete_eq_iff.mpr ⟨hhalf, rfl, rfl⟩
  have hname : complete.incomplete = key := by
    rw [hsame]
    exact Label.incomplete_of_not_isComplete hopen
      (hindexed.initiator_ne hheld)
  have hfinal : complete.isComplete = true := by
    rw [hcomplete]
    exact htheirs
  have hown : next.ownHalf = dialogue.ownHalf := by
    rw [Dialogue.ownHalf, Dialogue.ownHalf, hrole, hinitiator, hlabel,
      hcomplete, hindexed.label_eq hheld]
    exact hhalf
  have hself : complete.self = registry.address := by
    have hkey := hindexed.self_eq hheld
    rw [hcomplete]
    exact hkey
  have hopponent : complete.opponent ≠ registry.address := by
    have hkey := hindexed.opponent_ne hheld
    rw [hcomplete]
    exact hkey
  have hnamed : complete.reference.initiator ≠ unassigned := by
    rw [hcomplete]
    exact hhalf ▸ hindexed.initiator_ne hheld
  -- The dialogue moves in two steps: it is dropped, and it is added again.
  refine (hindexed.drop hopen).extend rfl ?_ ?_ hlabel hself hopponent hnamed
    ?_ ?_
  · intro other another
    rw [holds_completed_iff hkey, holds_drop_iff]
  · intro name target
    rw [hfinal, hname, Registry.hold, rekey, addName, OrderedMap.get?_set, hkey]
    by_cases hsought : name = key
    · simp [hsought, eq_comm]
    · have hnames : (registry.drop key).completed = registry.completed := rfl
      simp [hsought, hnames]
  · intro other another hbase hincomplete
    obtain ⟨hne, hother⟩ := holds_drop_iff.mp hbase
    exact hne (eq_of_incomplete_eq hindexed hother hheld
      (hincomplete.trans hsame))
  · intro other another hbase heq
    obtain ⟨hne, hother⟩ := holds_drop_iff.mp hbase
    rw [hown] at heq
    exact hne (hindexed.ownHalf_inj hother hheld heq)

/-- Every operation keeps the index in order. -/
theorem Effect.indexed (heffect : Effect before event after)
    (hnamed : event.IsNamed) (hindexed : before.Indexed) : after.Indexed := by
  cases heffect with
  | counted stats => exact hindexed.withStats stats
  | cleared stats => exact hindexed.evictEnded.withStats stats
  | opened stats hopponent hroom hfresh hhalf hlabel hbuild happend =>
    refine Indexed.withStats ?_ stats
    rw [← address_of_makeRoom_ok hroom] at hopponent hlabel
    exact (hindexed.makeRoom hroom).opened hfresh hhalf hopponent hlabel
      (Dialogue.label_of_append happend) (Dialogue.role_of_append happend)
  | admitted stats hsender hlabel hunknown hopener hincomplete hroom hfresh hhalf
      hcomplete happend =>
    refine Indexed.withStats ?_ stats
    have hnew := (find?_eq_none_iff hindexed).mp hunknown
    have haddress := address_of_makeRoom_ok hroom
    refine (hindexed.makeRoom hroom).admitted hfresh hhalf ?_ ?_ ?_ hincomplete
      (fun hheld => hnew _ _ (holds_of_makeRoom hroom hheld)) hcomplete
      (Dialogue.label_of_append happend) (Dialogue.role_of_append happend)
    · rw [hlabel, haddress]
    · rw [hlabel, haddress]
      exact hsender
    · rw [hlabel]
      exact hnamed
  | spoke stats hfound hbuild happend =>
    refine Indexed.withStats ?_ stats
    exact hindexed.hold ((find?_eq_some_iff hindexed).mp hfound).1
      (Dialogue.label_of_append happend) (Dialogue.role_of_append happend)
  | heard stats hsender hlabel hfound hfit happend =>
    refine Indexed.withStats ?_ stats
    exact hindexed.hold ((find?_eq_some_iff hindexed).mp hfound).1
      (Dialogue.label_of_append happend) (Dialogue.role_of_append happend)
  | completed stats hsender hlabel hfound hfit hcomplete hfree happend =>
    refine Indexed.withStats ?_ stats
    have hrole := Dialogue.role_of_append happend
    exact hindexed.completed ((find?_eq_some_iff hindexed).mp hfound).1 hfit
      hcomplete (Dialogue.label_of_append happend) hrole
  | finished stats hfound hfinish =>
    refine Indexed.withStats ?_ stats
    obtain ⟨-, -, rfl⟩ := Dialogue.finish_eq_ok_iff.mp hfinish
    exact hindexed.hold ((find?_eq_some_iff hindexed).mp hfound).1 rfl rfl

theorem Indexed.perform (hindexed : registry.Indexed) {operation : Operation}
    (hadmissible : operation.IsAdmissible) :
    (registry.perform operation).2.Indexed :=
  (perform_effect registry operation).indexed
    (perform_isNamed registry hadmissible) hindexed

theorem Indexed.run (hindexed : registry.Indexed) (operations : List Operation)
    (hadmissible : ∀ operation ∈ operations, operation.IsAdmissible) :
    (registry.run operations).Indexed :=
  run_induction hindexed fun _ operation hmem hkept =>
    hkept.perform (hadmissible operation hmem)

theorem address_run (registry : Registry) (operations : List Operation) :
    (registry.run operations).address = registry.address :=
  run_induction (motive := fun later => later.address = registry.address) rfl
    fun later operation _ hsame =>
      (perform_effect later operation).address_eq.trans hsame

theorem specification_run (registry : Registry) (operations : List Operation) :
    (registry.run operations).specification = registry.specification :=
  run_induction
    (motive := fun later => later.specification = registry.specification) rfl
    fun later operation _ hsame =>
      (perform_effect later operation).specification_eq.trans hsame

theorem limits_run (registry : Registry) (operations : List Operation) :
    (registry.run operations).limits = registry.limits :=
  run_induction (motive := fun later => later.limits = registry.limits) rfl
    fun later operation _ hsame =>
      (perform_effect later operation).limits_eq.trans hsame

end Runs

/-- In a registry that any operations have led to, the two maps belong together,
no label that is held is an earlier name of another dialogue, and every
dialogue is found under both its names. -/
theorem indexed_run (specification : Specification) (address : Address)
    (limits : Limits) (operations : List Operation)
    (hadmissible : ∀ operation ∈ operations, operation.IsAdmissible) :
    let registry := (empty specification address limits).run operations
    registry.address = address ∧ registry.Indexed ∧
      ∀ key dialogue, registry.Holds key dialogue →
        registry.completed.get? key = none
          ∧ registry.dialogue? key = some dialogue
          ∧ registry.dialogue? key.incomplete = some dialogue := by
  intro registry
  have hindexed : registry.Indexed :=
    (indexed_empty specification address limits).run operations hadmissible
  refine ⟨address_run _ operations, hindexed, fun key dialogue hheld => ?_⟩
  exact ⟨completed_of_holds hindexed hheld,
    dialogue?_of_holds hindexed hheld⟩

/-- One conversation is completed by its opponent, who declines, another is
opened by a third agent under the same half, and a third one is opened back. -/
def crossingOperations : List Operation :=
  let supply := HalfSupply.preferring "a" (by decide)
  let query := (Negotiation.Act.cfp ⟨"books", {}⟩).toFields
  let protocol := Negotiation.specification.id
  [.openWith supply "cfp" query ⟨"bob"⟩,
    .receiveMessage supply
      ⟨protocol, ⟨⟨"a", "b"⟩, 2, 1⟩, "decline", [("reason", .absent)]⟩ ⟨"bob"⟩,
    .receiveMessage supply
      ⟨protocol, .opening (.opened "a"), "cfp", query⟩ ⟨"carol"⟩,
    .openWith supply "cfp" query ⟨"carol"⟩]

theorem indexed_run_crossing :
    let registry :=
      (empty Negotiation.specification ⟨"alice"⟩ {}).run crossingOperations
    (∀ operation ∈ crossingOperations, operation.IsAdmissible)
      ∧ registry.dialogues.size = 3 ∧ registry.completed.size = 2
      ∧ registry.address = ⟨"alice"⟩ ∧ registry.Indexed
      ∧ ∀ key dialogue, registry.Holds key dialogue →
        registry.completed.get? key = none
          ∧ registry.dialogue? key = some dialogue
          ∧ registry.dialogue? key.incomplete = some dialogue := by
  have hadmissible :
      ∀ operation ∈ crossingOperations, operation.IsAdmissible := by
    simp [crossingOperations, Operation.IsAdmissible, Routing.opening,
      Reference.opened, unassigned]
  exact ⟨hadmissible, by decide +kernel, by decide +kernel,
    indexed_run _ _ _ _ hadmissible⟩

end Registry

end Colloquy
