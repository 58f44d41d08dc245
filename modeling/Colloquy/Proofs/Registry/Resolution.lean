import Colloquy.Proofs.Registry.Frame

/-!
# Resolving labels

Which dialogue a label leads to, whatever a registry was asked before: messages
may be handed over under any reference, also one that leaves the initiator half
open, and such dialogues are held under names that lead nowhere.  Labels that
name an initiator half are not affected by them.

Main statement: a complete label leads to the dialogue that is held under the
same initiator half with the same opponent, whatever responder half it names.
So it identifies a conversation exactly if no dialogue is held whose reference
was completed by another half.
-/

namespace Colloquy

/-- The initiator half is assigned. -/
def Label.IsNamed (label : Label) : Prop :=
  label.reference.initiator ≠ unassigned

theorem Label.isNamed_of_isComplete {label : Label}
    (hcomplete : label.isComplete = true) : label.IsNamed :=
  (Reference.isComplete_iff.mp hcomplete).1

theorem Label.IsNamed.of_incomplete_eq {label other : Label}
    (hnamed : label.IsNamed) (hsame : other.incomplete = label.incomplete) :
    other.IsNamed := by
  rw [IsNamed, (Label.incomplete_eq_iff.mp hsame).1]
  exact hnamed

namespace Registry

/-- Every dialogue under a named label is found through the label before that was
complete, and no name outlives the dialogue that it stands for. -/
structure Traceable (registry : Registry) : Prop where
  keyed : registry.Keyed
  self_eq : ∀ {key dialogue}, registry.Holds key dialogue →
    key.self = registry.address
  current_eq : ∀ {key dialogue}, registry.Holds key dialogue → key.IsNamed →
    registry.current key.incomplete = key
  target : ∀ {name key}, registry.completed.get? name = some key →
    (∃ dialogue, registry.Holds key dialogue)
      ∧ (key.IsNamed → key.isComplete = true)

section Resolution

variable {registry before after base : Registry} {event : Event}
  {key label name : Label} {dialogue next : Dialogue}

/-! ## Looking up -/

theorem Traceable.eq_of_incomplete_eq (htraceable : registry.Traceable)
    {other : Label} {another : Dialogue} (hheld : registry.Holds key dialogue)
    (hother : registry.Holds other another) (hnamed : key.IsNamed)
    (hsame : other.incomplete = key.incomplete) : other = key := by
  calc
    other = registry.current other.incomplete :=
      (htraceable.current_eq hother (hnamed.of_incomplete_eq hsame)).symm
    _ = registry.current key.incomplete := by rw [hsame]
    _ = key := htraceable.current_eq hheld hnamed

/-- A named label finds the dialogue that was opened under the same initiator
half between the same agents, and no other one. -/
theorem Traceable.find?_eq_some_iff (htraceable : registry.Traceable)
    (hnamed : label.IsNamed) :
    registry.find? label = some (key, dialogue) ↔
      registry.Holds key dialogue ∧ key.incomplete = label.incomplete := by
  constructor
  · exact htraceable.keyed.holds_of_find?
  · rintro ⟨hheld, hsame⟩
    have hkey := hnamed.of_incomplete_eq hsame
    exact find?_of_current htraceable.keyed hheld
      (fun hother => htraceable.eq_of_incomplete_eq hheld hother hkey)
      (htraceable.current_eq hheld hkey) hnamed hsame

/-- No dialogue is held yet under the label that its completed reference gives
one. -/
theorem Traceable.not_contains_of_completes (htraceable : registry.Traceable)
    {theirs : Reference} (hheld : registry.Holds key dialogue)
    (hfit : fit dialogue theirs = .completes) :
    registry.dialogues.contains (dialogue.label.withReference theirs) = false := by
  have hlabel := htraceable.keyed.label_eq hheld
  obtain ⟨hopen, -, htheirs, hhalf⟩ := fit_eq_completes_iff.mp hfit
  have hcomplete : (dialogue.label.withReference theirs).isComplete = true :=
    htheirs
  rw [← Bool.not_eq_true, contains_iff_exists_holds]
  intro hcontains
  obtain ⟨another, hother⟩ := hcontains
  have hsame :
      (dialogue.label.withReference theirs).incomplete = key.incomplete := by
    rw [← hlabel]
    exact Label.incomplete_eq_iff.mpr ⟨hhalf, rfl, rfl⟩
  have hnamed : key.IsNamed :=
    (Label.isNamed_of_isComplete hcomplete).of_incomplete_eq hsame.symm
  have heq := htraceable.eq_of_incomplete_eq hheld hother hnamed hsame
  rw [hlabel, ← heq] at hopen
  rw [hopen] at hcomplete
  cases hcomplete

/-! ## Changes -/

theorem traceable_empty (specification : Specification) (address : Address)
    (limits : Limits) : (empty specification address limits).Traceable where
  keyed := keyed_empty specification address limits
  self_eq hheld := absurd hheld not_holds_empty
  current_eq hheld := absurd hheld not_holds_empty
  target hname := by simp [empty] at hname

theorem Traceable.withStats (htraceable : registry.Traceable) (stats : Stats) :
    ({ registry with stats } : Registry).Traceable :=
  ⟨htraceable.keyed.withStats stats, htraceable.self_eq, htraceable.current_eq,
    htraceable.target⟩

theorem Traceable.evictEnded (htraceable : registry.Traceable) :
    registry.evictEnded.Traceable where
  keyed := htraceable.keyed.evictEnded
  self_eq hheld := htraceable.self_eq (holds_evictEnded_iff.mp hheld).1
  current_eq := by
    intro key dialogue hheld hnamed
    have hcontains := contains_iff_exists_holds.mpr ⟨dialogue, hheld⟩
    have hbefore :=
      htraceable.current_eq (holds_evictEnded_iff.mp hheld).1 hnamed
    rw [← hbefore] at hcontains
    rw [current_evictEnded hcontains, hbefore]
  target := by
    intro name key hname
    obtain ⟨hbefore, hheld⟩ := completed_evictEnded_eq_some_iff.mp hname
    exact ⟨hheld, (htraceable.target hbefore).2⟩

theorem Traceable.makeRoom (htraceable : before.Traceable)
    (hroom : before.makeRoom = (.ok (), base)) : base.Traceable := by
  rcases eq_of_makeRoom_ok hroom with rfl | rfl
  · exact htraceable
  · exact htraceable.evictEnded

/-- A dialogue may be held under a label of its own to which no other name
leads. -/
theorem Traceable.hold (htraceable : registry.Traceable)
    (hlabel : dialogue.label = key) (hself : key.self = registry.address)
    (hcurrent : key.IsNamed → registry.current key.incomplete = key) :
    (registry.hold key dialogue).Traceable where
  keyed := htraceable.keyed.hold hlabel
  self_eq hheld := by
    rcases holds_hold_iff.mp hheld with ⟨rfl, rfl⟩ | ⟨-, hother⟩
    · exact hself
    · exact htraceable.self_eq hother
  current_eq hheld hnamed := by
    rcases holds_hold_iff.mp hheld with ⟨rfl, rfl⟩ | ⟨-, hother⟩
    · exact hcurrent hnamed
    · exact htraceable.current_eq hother hnamed
  target := by
    intro name target hname
    obtain ⟨⟨another, hother⟩, hcomplete⟩ := htraceable.target hname
    refine ⟨?_, hcomplete⟩
    by_cases hkey : target = key
    · exact ⟨dialogue, holds_hold_iff.mpr (Or.inl ⟨hkey, rfl⟩)⟩
    · exact ⟨another, holds_hold_iff.mpr (Or.inr ⟨hkey, hother⟩)⟩

/-- A dialogue may be added with another name for it, if no dialogue that is held
belongs to the same conversation. -/
theorem Traceable.extend (htraceable : before.Traceable)
    (haddress : after.address = before.address)
    (hheld : ∀ {other another}, after.Holds other another ↔
      other = key ∧ another = dialogue
        ∨ other ≠ key ∧ before.Holds other another)
    (hnames : ∀ other, after.completed.get? other =
      if other = name then some key else before.completed.get? other)
    (hlabel : dialogue.label = key) (hself : key.self = before.address)
    (hsame : key.incomplete = name.incomplete)
    (hincomplete : name.isComplete = false)
    (hcomplete : key.IsNamed → key.isComplete = true)
    (hnew : ∀ {other another}, before.Holds other another → other.IsNamed →
      other.incomplete ≠ name.incomplete) : after.Traceable where
  keyed := by
    constructor
    · intro other another hafter
      rcases hheld.mp hafter with ⟨rfl, rfl⟩ | ⟨-, hother⟩
      · exact hlabel
      · exact htraceable.keyed.label_eq hother
    · intro other target hname
      rw [hnames] at hname
      split at hname
      · rename_i heq
        cases hname
        rw [hsame, heq]
      · exact htraceable.keyed.incomplete_eq hname
  self_eq hafter := by
    rw [haddress]
    rcases hheld.mp hafter with ⟨rfl, rfl⟩ | ⟨-, hother⟩
    · exact hself
    · exact htraceable.self_eq hother
  current_eq := by
    intro other another hafter hnamed
    rw [current, hnames]
    rcases hheld.mp hafter with ⟨rfl, rfl⟩ | ⟨-, hother⟩
    · have hname : other.incomplete = name := by
        rw [hsame]
        exact Label.incomplete_of_not_isComplete hincomplete
          (hnamed.of_incomplete_eq hsame.symm)
      rw [if_pos hname, Option.getD_some]
    · have hne : other.incomplete ≠ name := by
        intro heq
        apply hnew hother hnamed
        rw [← heq, Label.incomplete_incomplete]
      rw [if_neg hne]
      exact htraceable.current_eq hother hnamed
  target := by
    intro other target hname
    rw [hnames] at hname
    split at hname
    · cases hname
      exact ⟨⟨dialogue, hheld.mpr (Or.inl ⟨rfl, rfl⟩)⟩, hcomplete⟩
    · obtain ⟨⟨another, hother⟩, hclosed⟩ := htraceable.target hname
      refine ⟨?_, hclosed⟩
      by_cases hkey : target = key
      · exact ⟨dialogue, hheld.mpr (Or.inl ⟨hkey, rfl⟩)⟩
      · exact ⟨another, hheld.mpr (Or.inr ⟨hkey, hother⟩)⟩

/-- No name leads to a dialogue whose reference is still to be completed, so that
it can be dropped alone. -/
theorem Traceable.drop (htraceable : registry.Traceable)
    (hnamed : key.IsNamed) (hincomplete : key.isComplete = false) :
    (registry.drop key).Traceable where
  keyed := ⟨fun hheld => htraceable.keyed.label_eq (holds_drop_iff.mp hheld).2,
    htraceable.keyed.incomplete_eq⟩
  self_eq hheld := htraceable.self_eq (holds_drop_iff.mp hheld).2
  current_eq hheld := htraceable.current_eq (holds_drop_iff.mp hheld).2
  target := by
    intro name target hname
    obtain ⟨⟨another, hother⟩, hcomplete⟩ := htraceable.target hname
    refine ⟨⟨another, holds_drop_iff.mpr ⟨?_, hother⟩⟩, hcomplete⟩
    rintro rfl
    rw [hcomplete hnamed] at hincomplete
    cases hincomplete

theorem Traceable.opened (htraceable : registry.Traceable) {half : String}
    {opponent : Address} (hfresh : half ∉ registry.usedHalves)
    (hkey : key = ⟨.opened half, registry.address, opponent⟩)
    (hlabel : dialogue.label = key) : (registry.hold key dialogue).Traceable := by
  refine htraceable.hold hlabel (by rw [hkey]) fun _ => ?_
  have hunknown : registry.completed.get? key.incomplete = none := by
    refine Option.eq_none_iff_forall_ne_some.mpr fun target hname => ?_
    obtain ⟨⟨another, hother⟩, -⟩ := htraceable.target hname
    exact incomplete_ne_of_fresh hfresh (by rw [hkey]; rfl) hother
      (htraceable.keyed.incomplete_eq hname)
  rw [current, hunknown, Option.getD_none, hkey]
  rfl

/-- A completed reference gives a dialogue a new label, under which it is found
like before. -/
theorem Traceable.completed (htraceable : registry.Traceable)
    {complete : Label} {theirs : Reference}
    (hheld : registry.Holds key dialogue)
    (hfit : fit dialogue theirs = .completes)
    (hcomplete : complete = dialogue.label.withReference theirs)
    (hlabel : next.label = complete) :
    ((registry.rekey dialogue complete).hold complete next).Traceable := by
  obtain ⟨hopen, -, hclosed, hhalf⟩ := fit_eq_completes_iff.mp hfit
  have hkey := htraceable.keyed.label_eq hheld
  rw [hkey] at hopen hcomplete hhalf
  have hsame : complete.incomplete = key.incomplete := by
    rw [hcomplete]
    exact Label.incomplete_eq_iff.mpr ⟨hhalf, rfl, rfl⟩
  have hfinal : complete.isComplete = true := by
    rw [hcomplete]
    exact hclosed
  have hnamed : key.IsNamed :=
    (Label.isNamed_of_isComplete hfinal).of_incomplete_eq hsame.symm
  have hself : complete.self = registry.address := by
    have hkey := htraceable.self_eq hheld
    rw [hcomplete]
    exact hkey
  refine (htraceable.drop hnamed hopen).extend rfl ?_ ?_ hlabel hself hsame
    hopen (fun _ => hfinal) ?_
  · intro other another
    rw [holds_completed_iff hkey, holds_drop_iff]
  · intro other
    rw [Registry.hold, rekey, addName, OrderedMap.get?_set, hkey]
    rfl
  · intro other another hother hnamedToo hincomplete
    obtain ⟨hne, hbefore⟩ := holds_drop_iff.mp hother
    exact hne (htraceable.eq_of_incomplete_eq hheld hbefore hnamed hincomplete)

theorem Effect.traceable (heffect : Effect before event after)
    (htraceable : before.Traceable) : after.Traceable := by
  cases heffect with
  | counted stats => exact htraceable.withStats stats
  | cleared stats => exact htraceable.evictEnded.withStats stats
  | opened stats hopponent hroom hfresh hhalf hlabel hbuild happend =>
    refine Traceable.withStats ?_ stats
    rw [← address_of_makeRoom_ok hroom] at hlabel
    exact (htraceable.makeRoom hroom).opened hfresh hlabel
      (Dialogue.label_of_append happend)
  | @admitted base half _ _ _ _ _ stats hsender hlabel hunknown hopener
      hincomplete hroom hfresh hhalf hcomplete happend =>
    refine Traceable.withStats ?_ stats
    have haddress := address_of_makeRoom_ok hroom
    refine (htraceable.makeRoom hroom).extend rfl holds_hold_iff
      (fun other => OrderedMap.get?_set ..) (Dialogue.label_of_append happend)
      ?_ (by rw [hcomplete]; rfl) hincomplete ?_ ?_
    · rw [hcomplete, hlabel, haddress]
      rfl
    · intro hnamed
      rw [hcomplete] at hnamed ⊢
      exact Reference.isComplete_iff.mpr ⟨hnamed, hhalf⟩
    · intro other another hother hnamed hsame
      have hfound := (htraceable.find?_eq_some_iff
        (hnamed.of_incomplete_eq hsame.symm)).mpr
          ⟨holds_of_makeRoom hroom hother, hsame⟩
      rw [hunknown] at hfound
      cases hfound
  | spoke stats hfound hbuild happend =>
    refine Traceable.withStats ?_ stats
    obtain ⟨hheld, -⟩ := htraceable.keyed.holds_of_find? hfound
    refine htraceable.hold ?_ (htraceable.self_eq hheld)
      (htraceable.current_eq hheld)
    rw [Dialogue.label_of_append happend, htraceable.keyed.label_eq hheld]
  | heard stats hsender hlabel hfound hfit happend =>
    refine Traceable.withStats ?_ stats
    obtain ⟨hheld, -⟩ := htraceable.keyed.holds_of_find? hfound
    refine htraceable.hold ?_ (htraceable.self_eq hheld)
      (htraceable.current_eq hheld)
    rw [Dialogue.label_of_append happend, htraceable.keyed.label_eq hheld]
  | completed stats hsender hlabel hfound hfit hcomplete hfree happend =>
    refine Traceable.withStats ?_ stats
    obtain ⟨hheld, -⟩ := htraceable.keyed.holds_of_find? hfound
    exact htraceable.completed hheld hfit hcomplete
      (Dialogue.label_of_append happend)
  | finished stats hfound hfinish =>
    refine Traceable.withStats ?_ stats
    obtain ⟨hheld, -⟩ := htraceable.keyed.holds_of_find? hfound
    have hlabel := htraceable.keyed.label_eq hheld
    obtain ⟨-, -, hnext⟩ := Dialogue.finish_eq_ok_iff.mp hfinish
    refine htraceable.hold ?_ (htraceable.self_eq hheld)
      (htraceable.current_eq hheld)
    rw [hnext]
    exact hlabel

theorem Traceable.perform (htraceable : registry.Traceable)
    (operation : Operation) : (registry.perform operation).2.Traceable :=
  (perform_effect registry operation).traceable htraceable

theorem Traceable.run (htraceable : registry.Traceable)
    (operations : List Operation) : (registry.run operations).Traceable :=
  run_induction htraceable fun _ operation _ hkept => hkept.perform operation

/-! ## What a label reaches -/

/-- Two labels that find the same dialogue are the same to every operation. -/
theorem acts_of_find? {other : Label}
    (hfound : registry.find? label = some (key, dialogue))
    (hother : registry.find? other = some (key, dialogue)) :
    registry.dialogue? label = some dialogue
      ∧ (∀ performative fields, registry.reply label performative fields
        = registry.reply other performative fields)
      ∧ ∀ state, registry.endDialogue label state
        = registry.endDialogue other state := by
  refine ⟨?_, fun performative fields => ?_, fun state => ?_⟩
  · rw [dialogue?, hfound, Option.map_some]
  · rw [reply, reply, hfound, hother]
  · rw [endDialogue, endDialogue, hfound, hother]

theorem refuses_of_find?_eq_none (hunknown : registry.find? label = none) :
    registry.dialogue? label = none
      ∧ (∀ performative fields, registry.reply label performative fields
        = registry.fail (.unknown label))
      ∧ ∀ state, registry.endDialogue label state
        = registry.fail (.unknown label) := by
  refine ⟨?_, fun performative fields => ?_, fun state => ?_⟩
  · rw [dialogue?, hunknown, Option.map_none]
  · rw [reply, hunknown]
  · rw [endDialogue, hunknown]

end Resolution

end Registry

/-- What a complete label should lead to: the dialogue that is held under it, or
one whose reference it would complete. -/
def Label.Identifies (label key : Label) : Prop :=
  key = label
    ∨ key.isComplete = false ∧ key.incomplete = label.incomplete

instance (label key : Label) : Decidable (label.Identifies key) :=
  inferInstanceAs (Decidable (_ ∨ _))

namespace Registry

/-- After any operations, with any arguments, a complete label finds the dialogue
that is held under the same initiator half with the same opponent, and reading,
replying and ending act on that one or, if there is none, on none.  The responder
half that the label names is not looked at: the label identifies what it finds
exactly if the reference of no dialogue of that conversation was completed by
another half. -/
theorem identifies_of_isComplete (specification : Specification)
    (address : Address) (limits : Limits) (operations : List Operation)
    {label : Label} (hcomplete : label.isComplete = true) :
    let registry := (empty specification address limits).run operations
    (∀ key dialogue, registry.find? label = some (key, dialogue) ↔
      registry.Holds key dialogue ∧ key.incomplete = label.incomplete) ∧
    (∀ key dialogue, registry.find? label = some (key, dialogue) →
      registry.dialogue? label = some dialogue
        ∧ (∀ performative fields, registry.reply label performative fields
          = registry.reply key performative fields)
        ∧ ∀ state, registry.endDialogue label state
          = registry.endDialogue key state) ∧
    (registry.find? label = none → registry.dialogue? label = none
      ∧ (∀ performative fields, registry.reply label performative fields
        = registry.fail (.unknown label))
      ∧ ∀ state, registry.endDialogue label state
        = registry.fail (.unknown label)) ∧
    ((∀ key dialogue, registry.find? label = some (key, dialogue) →
        label.Identifies key) ↔
      ∀ key dialogue, registry.Holds key dialogue →
        key.isComplete = true → key.incomplete = label.incomplete →
          key = label) := by
  intro registry
  have htraceable : registry.Traceable :=
    (traceable_empty specification address limits).run operations
  have hnamed := Label.isNamed_of_isComplete hcomplete
  have hfind : ∀ key dialogue, registry.find? label = some (key, dialogue) ↔
      registry.Holds key dialogue ∧ key.incomplete = label.incomplete :=
    fun _ _ => htraceable.find?_eq_some_iff hnamed
  refine ⟨hfind, fun key dialogue hfound => ?_, refuses_of_find?_eq_none, ?_⟩
  · obtain ⟨hheld, hsame⟩ := (hfind key dialogue).mp hfound
    have hkey : registry.find? key = some (key, dialogue) :=
      (htraceable.find?_eq_some_iff (hnamed.of_incomplete_eq hsame)).mpr
        ⟨hheld, rfl⟩
    exact acts_of_find? hfound hkey
  · constructor
    · intro hidentifies key dialogue hheld hclosed hsame
      rcases hidentifies key dialogue ((hfind key dialogue).mpr ⟨hheld, hsame⟩)
        with heq | ⟨hopen, -⟩
      · exact heq
      · rw [hclosed] at hopen
        cases hopen
    · intro hunique key dialogue hfound
      obtain ⟨hheld, hsame⟩ := (hfind key dialogue).mp hfound
      cases hclosed : key.isComplete with
      | true => exact Or.inl (hunique key dialogue hheld hclosed hsame)
      | false => exact Or.inr ⟨hclosed, hsame⟩

/-- Alice calls for proposals, and Bob makes one. -/
def bargainingOperations : List Operation :=
  let supply := HalfSupply.preferring "a" Nat.one_pos
  let query := (Negotiation.Act.cfp ⟨"books", {}⟩).toFields
  let terms :=
    (Negotiation.Act.propose ⟨0x3ff0000000000000⟩ [] (.text "cash")).toFields
  [.openWith supply "cfp" query ⟨"bob"⟩,
    .receiveMessage supply (answerCall "propose" terms) ⟨"bob"⟩]

def bargaining : Registry :=
  (empty Negotiation.specification ⟨"alice"⟩ {}).run bargainingOperations

theorem identifies_of_isComplete_bargaining :
    let label : Label := ⟨⟨"a", "b"⟩, ⟨"alice"⟩, ⟨"bob"⟩⟩
    label.isComplete = true ∧ ∃ dialogue, bargaining.Holds label dialogue
      ∧ bargaining.find? label = some (label, dialogue)
      ∧ bargaining.dialogue? label = some dialogue := by
  intro label
  have hcomplete : label.isComplete = true := by decide
  obtain ⟨dialogue, hheld⟩ : ∃ dialogue, bargaining.Holds label dialogue :=
    contains_iff_exists_holds.mp (by decide +kernel)
  obtain ⟨hfind, hacts, -⟩ := identifies_of_isComplete Negotiation.specification
    ⟨"alice"⟩ {} bargainingOperations hcomplete
  have hfound := (hfind label dialogue).mpr ⟨hheld, rfl⟩
  exact ⟨hcomplete, dialogue, hheld, hfound, (hacts label dialogue hfound).1⟩

/-- Under a responder half that nobody chose the conversation with Bob is read,
continued and ended. -/
theorem not_identifies_forged :
    let forged : Label := ⟨⟨"a", "x"⟩, ⟨"alice"⟩, ⟨"bob"⟩⟩
    let key : Label := ⟨⟨"a", "b"⟩, ⟨"alice"⟩, ⟨"bob"⟩⟩
    forged.isComplete = true ∧ ¬ forged.Identifies key ∧ ∃ dialogue,
      bargaining.find? forged = some (key, dialogue)
        ∧ bargaining.dialogue? forged = some dialogue
        ∧ (bargaining.reply forged "accept" []).1.isOk = true
        ∧ (bargaining.endDialogue forged ⟨"failed"⟩).1.isOk = true := by
  intro forged key
  obtain ⟨dialogue, hheld⟩ : ∃ dialogue, bargaining.Holds key dialogue :=
    contains_iff_exists_holds.mp (by decide +kernel)
  have hfound : bargaining.find? forged = some (key, dialogue) :=
    find?_eq_some_iff_resolve?.mpr ⟨by decide +kernel, hheld⟩
  refine ⟨by decide, by decide, dialogue, hfound, ?_, by decide +kernel,
    by decide +kernel⟩
  rw [dialogue?, hfound, Option.map_some]

end Registry

end Colloquy
