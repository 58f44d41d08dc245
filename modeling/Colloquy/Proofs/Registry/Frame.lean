import Colloquy.Proofs.Registry.Index
import Colloquy.Proofs.Registry.Refusal

/-!
# No cross-talk

Which dialogues an operation can reach.  Main statement: whatever is asked of a
registry, at most one dialogue is added or changed, and it belongs to the
conversation that the operation names; every other dialogue stays as it is,
unless it had ended and made room.  Messages may be handed over with any
reference at all, so this rests on nothing but the keys of the two maps.
-/

namespace Colloquy

/-- A label of a conversation with an opponent, opened under an initiator
half. -/
def Label.IsOf (label : Label) (opponent : Address) (half : String) : Prop :=
  label.opponent = opponent ∧ label.reference.initiator = half

theorem Label.isOf_of_incomplete_eq {key label : Label}
    (hsame : key.incomplete = label.incomplete) :
    key.IsOf label.opponent label.reference.initiator := by
  obtain ⟨hinitiator, -, hopponent⟩ := Label.incomplete_eq_iff.mp hsame
  exact ⟨hopponent, hinitiator⟩

namespace Registry

/-- The conversations that an operation is about, by their labels. -/
def Operation.Concerns (registry : Registry) : Operation → Label → Prop
  | .openWith _ _ _ opponent, key => key.opponent = opponent
  | .send _ _ _ opponent none, key => key.opponent = opponent
  | .send _ _ _ _ (some label), key =>
    key.IsOf label.opponent label.reference.initiator
  | .reply label _ _, key => key.IsOf label.opponent label.reference.initiator
  | .receive _ payload sender, key => ∃ message,
    Message.decode registry.specification registry.limits.payload payload
        = .ok message
      ∧ key.IsOf sender message.routing.reference.initiator
  | .receiveMessage _ message sender, key =>
    key.IsOf sender message.routing.reference.initiator
  | .endDialogue label _, key =>
    key.IsOf label.opponent label.reference.initiator
  | .evict, _ => False

/-- Ended dialogues may be dropped, on request or to make room. -/
def Operation.Evicts (registry : Registry) (operation : Operation) : Prop :=
  operation = .evict ∨ operation.NeedsRoom registry ∧ registry.IsFull

/-- A dialogue and what became of it: it had not ended, and at most one message
was added. -/
structure Grows (key : Label) (dialogue : Dialogue) (later : Label)
    (next : Dialogue) : Prop where
  active : dialogue.isEnded = false
  role : next.role = dialogue.role
  incomplete : later.incomplete = key.incomplete
  history : next.history = dialogue.history
    ∨ ∃ entry, next.history = dialogue.history ++ [entry]

/-- A registry before and after something that took at most one dialogue away,
and put at most one in its place. -/
structure Touches (before after : Registry) (concerns : Label → Prop)
    (evicts : Prop) (taken put : Option (Label × Dialogue)) : Prop where
  /-- What is taken away is put back with at most one message more. -/
  grows : ∀ {key dialogue}, taken = some (key, dialogue) →
    before.Holds key dialogue
      ∧ ∃ later next, put = some (later, next) ∧ Grows key dialogue later next
  concerns : ∀ {key dialogue}, put = some (key, dialogue) →
    after.Holds key dialogue ∧ concerns key
  /-- Everything else stays, unless it had ended and was dropped. -/
  kept : ∀ {key dialogue}, before.Holds key dialogue →
    taken ≠ some (key, dialogue) →
    after.Holds key dialogue ∨ dialogue.isEnded = true ∧ evicts
  /-- Nothing else is new. -/
  old : ∀ {key dialogue}, after.Holds key dialogue →
    put ≠ some (key, dialogue) →
    before.Holds key dialogue ∧ taken ≠ some (key, dialogue)

section Changes

variable {before after base registry : Registry} {concerns : Label → Prop}
  {evicts : Prop} {key later : Label} {dialogue next : Dialogue}

theorem Touches.mono {more : Label → Prop} {allowed : Prop}
    {taken put : Option (Label × Dialogue)}
    (htouches : Touches before after concerns evicts taken put)
    (hconcerns : ∀ key, concerns key → more key) (hallowed : evicts → allowed) :
    Touches before after more allowed taken put where
  grows htaken := htouches.grows htaken
  concerns hput := (htouches.concerns hput).imp_right (hconcerns _)
  kept hheld htaken :=
    (htouches.kept hheld htaken).imp_right (And.imp_right hallowed)
  old hheld hput := htouches.old hheld hput

theorem Vacated.kept (hvacated : Vacated before evicts base)
    (hheld : before.Holds key dialogue) :
    base.Holds key dialogue ∨ dialogue.isEnded = true ∧ evicts := by
  cases hvacated with
  | same => exact Or.inl hheld
  | cleared hallowed =>
    cases hended : dialogue.isEnded with
    | true => exact Or.inr ⟨rfl, hallowed⟩
    | false => exact Or.inl (holds_evictEnded_iff.mpr ⟨hheld, hended⟩)

theorem Vacated.old (hvacated : Vacated before evicts base)
    (hheld : base.Holds key dialogue) : before.Holds key dialogue := by
  cases hvacated with
  | same => exact hheld
  | cleared => exact (holds_evictEnded_iff.mp hheld).1

theorem touches_none (hvacated : Vacated before evicts base)
    (hheld : ∀ {other another}, after.Holds other another ↔
      base.Holds other another) :
    Touches before after concerns evicts none none where
  grows htaken := nomatch htaken
  concerns hput := nomatch hput
  kept hbefore _ := (hvacated.kept hbefore).imp_left hheld.mpr
  old hafter _ := ⟨hvacated.old (hheld.mp hafter), nofun⟩

theorem touches_added (hvacated : Vacated before evicts base)
    (hconcerns : concerns key) (hnew : ∀ another, ¬ base.Holds key another)
    (hheld : ∀ {other another}, after.Holds other another ↔
      other = key ∧ another = dialogue ∨ other ≠ key ∧ base.Holds other another) :
    Touches before after concerns evicts none (some (key, dialogue)) where
  grows htaken := nomatch htaken
  concerns hput := by
    cases hput
    exact ⟨hheld.mpr (Or.inl ⟨rfl, rfl⟩), hconcerns⟩
  kept hbefore _ := by
    apply (hvacated.kept hbefore).imp_left
    intro hbase
    apply hheld.mpr
    refine Or.inr ⟨?_, hbase⟩
    rintro rfl
    exact hnew _ hbase
  old hafter hput := by
    rcases hheld.mp hafter with ⟨rfl, rfl⟩ | ⟨-, hbase⟩
    · exact absurd rfl hput
    · exact ⟨hvacated.old hbase, nofun⟩

/-- A dialogue may be replaced, or moved to a label that is free. -/
theorem touches_changed (hbefore : before.Holds key dialogue)
    (hgrows : Grows key dialogue later next) (hconcerns : concerns later)
    (hfree : later = key ∨ ∀ another, ¬ before.Holds later another)
    (hheld : ∀ {other another}, after.Holds other another ↔
      other = later ∧ another = next
        ∨ other ≠ later ∧ other ≠ key ∧ before.Holds other another) :
    Touches before after concerns evicts (some (key, dialogue))
      (some (later, next)) where
  grows htaken := by
    cases htaken
    exact ⟨hbefore, later, next, rfl, hgrows⟩
  concerns hput := by
    cases hput
    exact ⟨hheld.mpr (Or.inl ⟨rfl, rfl⟩), hconcerns⟩
  kept := by
    intro other another hother htaken
    have hkey : other ≠ key := by
      rintro rfl
      exact htaken (by rw [hbefore.eq hother])
    have hlater : other ≠ later := by
      rintro rfl
      rcases hfree with heq | hnone
      · exact hkey heq
      · exact hnone another hother
    exact Or.inl (hheld.mpr (Or.inr ⟨hlater, hkey, hother⟩))
  old := by
    intro other another hafter hput
    rcases hheld.mp hafter with ⟨rfl, rfl⟩ | ⟨-, hkey, hother⟩
    · exact absurd rfl hput
    · refine ⟨hother, ?_⟩
      intro htaken
      cases htaken
      exact hkey rfl

/-- Replacing a dialogue under its label leaves all others as they are. -/
theorem touches_hold (hbefore : registry.Holds key dialogue)
    (hgrows : Grows key dialogue key next) (hconcerns : concerns key)
    (stats : Stats) :
    Touches registry { registry.hold key next with stats } concerns evicts
      (some (key, dialogue)) (some (key, next)) := by
  apply touches_changed hbefore hgrows hconcerns (Or.inl rfl)
  intro other another
  exact holds_hold_iff.trans (by simp)

theorem not_isEnded_of_check {specification : Specification}
    {message : Message} {sender : Role}
    (hcheck : dialogue.check specification message sender = .ok ()) :
    dialogue.isEnded = false := by
  cases hended : dialogue.isEnded with
  | false => rfl
  | true =>
    rw [Dialogue.check_of_isEnded hended] at hcheck
    cases hcheck

theorem grows_of_append (key : Label) {specification : Specification}
    {message : Message} {sender : Role}
    (happend : dialogue.append specification message sender = .ok next) :
    Grows key dialogue key next := by
  have hcheck := Dialogue.check_of_append happend
  exact ⟨not_isEnded_of_check hcheck, Dialogue.role_of_append happend, rfl,
    Or.inr ⟨_, Dialogue.history_of_append happend⟩⟩

end Changes

/-! ## What the operations touch -/

section Operations

variable {registry after : Registry}

/-- Opening touches nothing that was held. -/
theorem openWith_touches {supply : HalfSupply} {performative : String}
    {fields : List (String × Value)} {opponent : Address} {label : Label}
    {message : Message}
    (hopen : registry.openWith supply performative fields opponent
      = (.ok (label, message), after)) :
    ∃ put, Touches registry after (fun key => key.opponent = opponent)
      (opponent ≠ registry.address ∧ registry.IsFull) none put := by
  obtain ⟨hopponent, base, dialogue, hroom, hlabel, -, -, rfl⟩ :=
    openWith_eq_ok hopen
  have hvacated := (vacated_of_makeRoom hroom).mono (And.intro hopponent)
  have hnew : ∀ another, ¬ base.Holds label another := by
    apply not_holds_of_unused
    rw [hlabel]
    exact Or.inl (supply.next_not_mem base.usedHalves)
  exact ⟨some (label, dialogue),
    touches_added hvacated (by rw [hlabel]) hnew holds_hold_iff⟩

theorem reply_touches (hkeyed : registry.Keyed) {label : Label}
    {performative : String} {fields : List (String × Value)}
    {message : Message}
    (hreply : registry.reply label performative fields
      = (.ok message, after)) :
    ∃ taken put, Touches registry after
      (fun key => key.IsOf label.opponent label.reference.initiator) False
      taken put := by
  obtain ⟨key, dialogue, next, hfound, -, happend, rfl⟩ :=
    reply_eq_ok hreply
  obtain ⟨hheld, hsame⟩ := hkeyed.holds_of_find? hfound
  exact ⟨_, _, touches_hold hheld (grows_of_append key happend)
    (Label.isOf_of_incomplete_eq hsame) _⟩

theorem continueWith_touches (hkeyed : registry.Keyed) {label key : Label}
    {dialogue next : Dialogue} {message : Message}
    (hfound : registry.find? label = some (key, dialogue))
    (hcontinue : registry.continueWith key dialogue message
      = (.ok next, after)) :
    ∃ taken put, Touches registry after
      (fun key => key.IsOf label.opponent label.reference.initiator) False
      taken put := by
  obtain ⟨hheld, hsame⟩ := hkeyed.holds_of_find? hfound
  obtain ⟨-, happend, rfl⟩
    | ⟨complete, hfit, hcomplete, hfree, happend, rfl⟩ :=
    continueWith_eq_ok hcontinue
  · exact ⟨_, _, touches_hold hheld (grows_of_append key happend)
      (Label.isOf_of_incomplete_eq hsame) _⟩
  · obtain ⟨-, -, -, hhalf⟩ := fit_eq_completes_iff.mp hfit
    rw [hkeyed.label_eq hheld] at hcomplete hhalf
    have hlater : complete.incomplete = key.incomplete := by
      rw [hcomplete]
      exact Label.incomplete_eq_iff.mpr ⟨hhalf, rfl, rfl⟩
    obtain ⟨hactive, hrole, -, hhistory⟩ :=
      grows_of_append complete happend
    have hgrows : Grows key dialogue complete next :=
      ⟨hactive, hrole, hlater, hhistory⟩
    have hconcerns := Label.isOf_of_incomplete_eq (hlater.trans hsame)
    refine ⟨some (key, dialogue), some (complete, next),
      touches_changed hheld hgrows hconcerns
        (Or.inr (not_holds_of_not_contains hfree))
        (holds_completed_iff (hkeyed.label_eq hheld))⟩

/-- Admitting an opener touches nothing that was held. -/
theorem acceptOpening_touches {supply : HalfSupply} {label : Label}
    {message : Message} {dialogue : Dialogue}
    (haccept : registry.acceptOpening supply label message
      = (.ok dialogue, after)) :
    ∃ put, Touches registry after
      (fun key => key.IsOf label.opponent label.reference.initiator)
      (label.isComplete = false ∧ registry.IsFull) none put := by
  obtain ⟨hincomplete, base, complete, hroom, hcomplete, -, rfl⟩ :=
    acceptOpening_eq_ok haccept
  have hvacated := (vacated_of_makeRoom hroom).mono (And.intro hincomplete)
  have hnew : ∀ another, ¬ base.Holds complete another := by
    apply not_holds_of_unused
    rw [hcomplete]
    exact Or.inr (supply.next_not_mem base.usedHalves)
  exact ⟨some (complete, dialogue),
    touches_added hvacated (by rw [hcomplete]; exact ⟨rfl, rfl⟩) hnew
      holds_hold_iff⟩

theorem receiveMessage_touches (hkeyed : registry.Keyed) {supply : HalfSupply}
    {message : Message} {sender : Address} {dialogue : Dialogue}
    (hreceive : registry.receiveMessage supply message sender
      = (.ok dialogue, after)) :
    ∃ taken put, Touches registry after
      (fun key => key.IsOf sender message.routing.reference.initiator)
      (registry.Admits message sender ∧ registry.IsFull) taken put := by
  obtain ⟨hprotocol, hsender, label, rfl,
    ⟨key, prior, hfound, hcontinue⟩ | ⟨hunknown, hopener, haccept⟩⟩ :=
    receiveMessage_eq_ok hreceive
  · obtain ⟨taken, put, htouches⟩ :=
      continueWith_touches hkeyed hfound hcontinue
    exact ⟨taken, put, htouches.mono (fun _ => id) False.elim⟩
  · obtain ⟨put, htouches⟩ := acceptOpening_touches haccept
    refine ⟨none, put, htouches.mono (fun _ => id) ?_⟩
    rintro ⟨hincomplete, hfull⟩
    exact ⟨⟨hprotocol, hsender, hunknown, hopener, hincomplete⟩, hfull⟩

theorem endDialogue_touches (hkeyed : registry.Keyed) {label : Label}
    {state : EndState}
    (hend : registry.endDialogue label state = (.ok (), after)) :
    ∃ taken put, Touches registry after
      (fun key => key.IsOf label.opponent label.reference.initiator) False
      taken put := by
  obtain ⟨key, dialogue, next, hfound, hfinish, rfl⟩ :=
    endDialogue_eq_ok hend
  obtain ⟨hheld, hsame⟩ := hkeyed.holds_of_find? hfound
  obtain ⟨hactive, -, hnext⟩ := Dialogue.finish_eq_ok_iff.mp hfinish
  have hgrows : Grows key dialogue key next := by
    rw [hnext]
    exact ⟨hactive, rfl, rfl, Or.inl rfl⟩
  exact ⟨_, _,
    touches_hold hheld hgrows (Label.isOf_of_incomplete_eq hsame) _⟩

theorem perform_touches_of_ok (hkeyed : registry.Keyed) {operation : Operation}
    {answer : Answer} (hok : (registry.perform operation).1 = .ok answer) :
    ∃ taken put, Touches registry (registry.perform operation).2
      (operation.Concerns registry) (operation.Evicts registry) taken put := by
  cases operation with
  | openWith supply performative fields opponent =>
    obtain ⟨⟨label, message⟩, hopen⟩ := Outcome.exists_of_mapResult hok
    obtain ⟨put, htouches⟩ := openWith_touches hopen
    exact ⟨none, put, htouches.mono (fun _ => id) Or.inr⟩
  | send supply performative fields opponent label =>
    obtain ⟨message, hsend⟩ := Outcome.exists_of_mapResult hok
    rcases send_cases hsend with
      ⟨rfl, opening, hopen, hresult⟩ | ⟨named, rfl, ⟨-, hreply⟩ | hfail⟩
    · cases opening with
      | error cause => cases hresult
      | ok opening =>
        obtain ⟨put, htouches⟩ := openWith_touches hopen
        refine ⟨none, put, htouches.mono (fun _ => id) ?_⟩
        exact fun ⟨hopponent, hfull⟩ => Or.inr ⟨⟨rfl, hopponent⟩, hfull⟩
    · obtain ⟨taken, put, htouches⟩ := reply_touches hkeyed hreply
      exact ⟨taken, put, htouches.mono (fun _ => id) False.elim⟩
    · cases (Prod.mk.inj hfail).1
  | reply label performative fields =>
    obtain ⟨message, hreply⟩ := Outcome.exists_of_mapResult hok
    obtain ⟨taken, put, htouches⟩ := reply_touches hkeyed hreply
    exact ⟨taken, put, htouches.mono (fun _ => id) False.elim⟩
  | receive supply payload sender =>
    obtain ⟨⟨dialogue, message⟩, hreceive⟩ := Outcome.exists_of_mapResult hok
    obtain ⟨hdecode, hmessage⟩ := receive_eq_ok hreceive
    obtain ⟨taken, put, htouches⟩ := receiveMessage_touches hkeyed hmessage
    refine ⟨taken, put, htouches.mono ?_ ?_⟩
    · exact fun key hconcerns => ⟨message, hdecode, hconcerns⟩
    · exact fun ⟨hadmits, hfull⟩ => Or.inr ⟨⟨message, hdecode, hadmits⟩, hfull⟩
  | receiveMessage supply message sender =>
    obtain ⟨dialogue, hreceive⟩ := Outcome.exists_of_mapResult hok
    obtain ⟨taken, put, htouches⟩ := receiveMessage_touches hkeyed hreceive
    exact ⟨taken, put, htouches.mono (fun _ => id) Or.inr⟩
  | endDialogue label state =>
    obtain ⟨⟨⟩, hend⟩ := Outcome.exists_of_mapResult hok
    obtain ⟨taken, put, htouches⟩ := endDialogue_touches hkeyed hend
    exact ⟨taken, put, htouches.mono (fun _ => id) False.elim⟩
  | evict =>
    exact ⟨none, none, touches_none (.cleared (Or.inl rfl)) Iff.rfl⟩

theorem perform_touches (hkeyed : registry.Keyed) (operation : Operation) :
    ∃ taken put, Touches registry (registry.perform operation).2
      (operation.Concerns registry) (operation.Evicts registry) taken put := by
  cases hresult : (registry.perform operation).1 with
  | ok answer => exact perform_touches_of_ok hkeyed hresult
  | error cause =>
    obtain ⟨-, base, hvacated, hrefused⟩ := perform_eq_error hresult
    obtain ⟨stats, hafter⟩ := hrefused.exists_stats
    rw [hafter]
    exact ⟨none, none, touches_none (hvacated.mono Or.inr) Iff.rfl⟩

end Operations

/-! ## Reachable registries -/

section Runs

variable {registry before after base : Registry} {event : Event}
  {key name : Label} {dialogue : Dialogue}

theorem keyed_empty (specification : Specification) (address : Address)
    (limits : Limits) : (empty specification address limits).Keyed :=
  (indexed_empty specification address limits).keyed

theorem Keyed.withStats (hkeyed : registry.Keyed) (stats : Stats) :
    ({ registry with stats } : Registry).Keyed :=
  ⟨hkeyed.label_eq, hkeyed.incomplete_eq⟩

theorem Keyed.evictEnded (hkeyed : registry.Keyed) :
    registry.evictEnded.Keyed where
  label_eq hheld := hkeyed.label_eq (holds_evictEnded_iff.mp hheld).1
  incomplete_eq hname := by
    rw [Registry.evictEnded, OrderedMap.get?_filter,
      Option.filter_eq_some_iff] at hname
    exact hkeyed.incomplete_eq hname.1

theorem Keyed.makeRoom (hkeyed : before.Keyed)
    (hroom : before.makeRoom = (.ok (), base)) : base.Keyed := by
  rcases eq_of_makeRoom_ok hroom with rfl | rfl
  · exact hkeyed
  · exact hkeyed.evictEnded

theorem Keyed.hold (hkeyed : registry.Keyed) (hlabel : dialogue.label = key) :
    (registry.hold key dialogue).Keyed where
  label_eq hheld := by
    rcases holds_hold_iff.mp hheld with ⟨rfl, rfl⟩ | ⟨-, hother⟩
    · exact hlabel
    · exact hkeyed.label_eq hother
  incomplete_eq hname := hkeyed.incomplete_eq hname

theorem Keyed.addName (hkeyed : registry.Keyed)
    (hsame : key.incomplete = name.incomplete) :
    (registry.addName name key).Keyed where
  label_eq hheld := hkeyed.label_eq hheld
  incomplete_eq hname := by
    rw [Registry.addName, OrderedMap.get?_set] at hname
    split at hname
    · rename_i heq
      cases hname
      rw [hsame, heq]
    · exact hkeyed.incomplete_eq hname

theorem Keyed.rekey (hkeyed : registry.Keyed)
    (hsame : key.incomplete = dialogue.label.incomplete) :
    (registry.rekey dialogue key).Keyed := by
  refine Keyed.addName ⟨?_, hkeyed.incomplete_eq⟩ hsame
  intro other another hheld
  rcases holds_rekey_iff.mp hheld with ⟨rfl, rfl⟩ | ⟨-, -, hother⟩
  · rfl
  · exact hkeyed.label_eq hother

theorem Effect.keyed (heffect : Effect before event after)
    (hkeyed : before.Keyed) : after.Keyed := by
  cases heffect with
  | counted stats => exact hkeyed.withStats stats
  | cleared stats => exact hkeyed.evictEnded.withStats stats
  | opened stats hopponent hroom hfresh hhalf hlabel hbuild happend =>
    refine Keyed.withStats ?_ stats
    exact (hkeyed.makeRoom hroom).hold (Dialogue.label_of_append happend)
  | admitted stats hsender hlabel hunknown hopener hincomplete hroom hfresh hhalf
      hcomplete happend =>
    refine Keyed.withStats (Keyed.addName ?_ ?_) stats
    · exact (hkeyed.makeRoom hroom).hold (Dialogue.label_of_append happend)
    · rw [hcomplete]
      rfl
  | spoke stats hfound hbuild happend =>
    refine Keyed.withStats (hkeyed.hold ?_) stats
    rw [Dialogue.label_of_append happend]
    exact hkeyed.label_eq (hkeyed.holds_of_find? hfound).1
  | heard stats hsender hlabel hfound hfit happend =>
    refine Keyed.withStats (hkeyed.hold ?_) stats
    rw [Dialogue.label_of_append happend]
    exact hkeyed.label_eq (hkeyed.holds_of_find? hfound).1
  | completed stats hsender hlabel hfound hfit hcomplete hfree happend =>
    have hheld := (hkeyed.holds_of_find? hfound).1
    obtain ⟨-, -, -, hhalf⟩ := fit_eq_completes_iff.mp hfit
    refine Keyed.withStats (Keyed.hold (hkeyed.rekey ?_) ?_) stats
    · rw [hcomplete]
      exact Label.incomplete_eq_iff.mpr ⟨hhalf, rfl, rfl⟩
    · exact Dialogue.label_of_append happend
  | finished stats hfound hfinish =>
    have hlabel := hkeyed.label_eq (hkeyed.holds_of_find? hfound).1
    obtain ⟨-, -, hnext⟩ := Dialogue.finish_eq_ok_iff.mp hfinish
    refine Keyed.withStats (hkeyed.hold ?_) stats
    rw [hnext]
    exact hlabel

theorem Keyed.run (hkeyed : registry.Keyed) (operations : List Operation) :
    (registry.run operations).Keyed :=
  run_induction hkeyed fun later operation _ hkept =>
    (perform_effect later operation).keyed hkept

end Runs

/-- After any operations, with any arguments, one more operation adds or changes
at most one dialogue, of a conversation that it is about; a dialogue that is
changed keeps its role and what was said in it.  All others stay as they are,
except that ended ones are dropped on request, or when a dialogue is to be
opened and there is no room. -/
theorem touches_run (specification : Specification) (address : Address)
    (limits : Limits) (operations : List Operation) (operation : Operation) :
    let before := (empty specification address limits).run operations
    ∃ taken put, Touches before (before.perform operation).2
      (operation.Concerns before) (operation.Evicts before) taken put := by
  intro before
  have hkeyed := (keyed_empty specification address limits).run operations
  exact perform_touches hkeyed operation

end Registry

end Colloquy
