import Colloquy.Proofs.Registry.Accounts
import Colloquy.Proofs.Registry.Frame

/-!
# Statistics and the dialogues they count

A registry counts as it goes, while dialogues come, change and are dropped again.
Its counters are compared with the dialogues themselves: those it holds, and
those it dropped, each as it was then.  Main statement: as long as no counter
wraps around, the counters say exactly how many dialogues there were, how much
was said in them and how they ended.
-/

namespace Colloquy

namespace Registry

/-! ## What an operation does to the dialogues and the counters -/

/-- A registry before and after a step, with the counters that moved. -/
inductive Books (before after : Registry) : Prop where
  /-- No dialogue is added or changed. -/
  | refused (hrefused : Refused before after)
  | opened {dialogue : Dialogue}
      (hvalues : after.dialogues.values.Perm
        (dialogue :: before.dialogues.values))
      (hadvanced : dialogue.IsAdvanced before.specification)
      (hsaid : dialogue.history.length = 1)
      (hstats : after.stats
        = (before.stats.recordAccepted.recordOutcome dialogue).recordOpened)
  | continued {dialogue next : Dialogue} {rest : List Dialogue}
      (hbefore : before.dialogues.values.Perm (dialogue :: rest))
      (hafter : after.dialogues.values.Perm (next :: rest))
      (hactive : dialogue.isEnded = false)
      (hadvanced : next.IsAdvanced before.specification)
      (hsaid : next.history.length = dialogue.history.length + 1)
      (hstats : after.stats = before.stats.recordAccepted.recordOutcome next)
  | finished {dialogue next : Dialogue} {rest : List Dialogue}
      (hbefore : before.dialogues.values.Perm (dialogue :: rest))
      (hafter : after.dialogues.values.Perm (next :: rest))
      (hactive : dialogue.isEnded = false)
      (hadvanced : next.IsAdvanced before.specification)
      (hsaid : next.history.length = dialogue.history.length)
      (hstats : after.stats = before.stats.recordOutcome next)

section Values

variable {before after registry : Registry} {key later : Label}
  {dialogue next : Dialogue}

theorem values_perm_of_added (hnew : ∀ another, ¬ before.Holds key another)
    (hheld : ∀ {other another}, after.Holds other another ↔
      other = key ∧ another = dialogue ∨ other ≠ key ∧ before.Holds other another) :
    after.dialogues.values.Perm (dialogue :: before.dialogues.values) := by
  have hcons : ((key, dialogue) :: before.dialogues.entries).Nodup := by
    apply List.nodup_cons.mpr
    exact ⟨fun hmem => hnew _ (OrderedMap.get?_eq_some_iff.mpr hmem),
      before.dialogues.nodup_entries⟩
  have hentries : after.dialogues.entries.Perm
      ((key, dialogue) :: before.dialogues.entries) := by
    apply (List.perm_ext_iff_of_nodup after.dialogues.nodup_entries hcons).mpr
    rintro ⟨other, another⟩
    rw [← OrderedMap.get?_eq_some_iff, List.mem_cons,
      ← OrderedMap.get?_eq_some_iff]
    refine hheld.trans ?_
    rw [Prod.mk.injEq]
    constructor
    · exact Or.imp_right And.right
    · rintro (hsame | hother)
      · exact Or.inl hsame
      · refine Or.inr ⟨?_, hother⟩
        rintro rfl
        exact hnew _ hother
  exact hentries.map Prod.snd

/-- A dialogue that takes the place of another one, under its label or under one
that is free, leaves all others as they are. -/
theorem values_perm_of_replaced (hbefore : before.Holds key dialogue)
    (hfree : later = key ∨ ∀ another, ¬ before.Holds later another)
    (hheld : ∀ {other another}, after.Holds other another ↔
      other = later ∧ another = next
        ∨ other ≠ later ∧ other ≠ key ∧ before.Holds other another) :
    ∃ rest, before.dialogues.values.Perm (dialogue :: rest)
      ∧ after.dialogues.values.Perm (next :: rest) := by
  -- Either registry is the one without the key, and one dialogue more.
  refine ⟨(before.drop key).dialogues.values, ?_, ?_⟩
  · apply values_perm_of_added
    · intro another hdropped
      exact (holds_drop_iff.mp hdropped).1 rfl
    · intro other another
      rw [holds_drop_iff]
      by_cases hkey : other = key
      · subst hkey
        simp only [true_and, ne_eq, not_true_eq_false, false_and, or_false]
        exact ⟨fun hother => hother.eq hbefore, fun hsame => hsame ▸ hbefore⟩
      · simp [hkey]
  · apply values_perm_of_added
    · intro another hdropped
      obtain ⟨hne, hother⟩ := holds_drop_iff.mp hdropped
      rcases hfree with hsame | hnone
      · exact hne hsame
      · exact hnone another hother
    · intro other another
      rw [holds_drop_iff]
      exact hheld

theorem values_perm_of_hold (hbefore : registry.Holds key dialogue)
    (next : Dialogue) :
    ∃ rest, registry.dialogues.values.Perm (dialogue :: rest)
      ∧ (registry.hold key next).dialogues.values.Perm (next :: rest) := by
  apply values_perm_of_replaced hbefore (Or.inl rfl)
  intro other another
  exact holds_hold_iff.trans (by simp)

end Values

section Operations

variable {registry after base : Registry}

theorem not_isEnded_of_append {specification : Specification}
    {dialogue next : Dialogue} {message : Message} {sender : Role}
    (happend : dialogue.append specification message sender = .ok next) :
    dialogue.isEnded = false :=
  not_isEnded_of_check (Dialogue.check_of_append happend)

theorem length_history_of_append {specification : Specification}
    {dialogue next : Dialogue} {message : Message} {sender : Role}
    (happend : dialogue.append specification message sender = .ok next) :
    next.history.length = dialogue.history.length + 1 := by
  rw [Dialogue.history_of_append happend, List.length_append,
    List.length_singleton]

theorem openWith_books {supply : HalfSupply} {performative : String}
    {fields : List (String × Value)} {opponent : Address} {label : Label}
    {message : Message}
    (hopen : registry.openWith supply performative fields opponent
      = (.ok (label, message), after)) :
    ∃ base, Cleared registry (opponent ≠ registry.address ∧ registry.IsFull) base
      ∧ Books base after := by
  obtain ⟨hopponent, base, dialogue, hroom, hlabel, -, happend, rfl⟩ :=
    openWith_eq_ok hopen
  have hnew : ∀ another, ¬ base.Holds label another := by
    apply not_holds_of_unused
    rw [hlabel]
    exact Or.inl (supply.next_not_mem base.usedHalves)
  have hcleared :=
    (cleared_of_makeRoom hroom).congr (and_iff_right hopponent).symm
  rw [← specification_of_makeRoom_ok hroom] at happend
  exact ⟨base, hcleared, .opened (values_perm_of_added hnew holds_hold_iff)
    (.append happend) (length_history_of_append happend) rfl⟩

theorem reply_books {label : Label} {performative : String}
    {fields : List (String × Value)} {message : Message}
    (hreply : registry.reply label performative fields
      = (.ok message, after)) : Books registry after := by
  obtain ⟨key, dialogue, next, hfound, -, happend, rfl⟩ := reply_eq_ok hreply
  obtain ⟨-, hheld⟩ := find?_eq_some_iff_resolve?.mp hfound
  obtain ⟨rest, hbefore, hafter⟩ := values_perm_of_hold hheld next
  exact .continued hbefore hafter (not_isEnded_of_append happend)
    (.append happend) (length_history_of_append happend) rfl

theorem continueWith_books (hkeyed : registry.Keyed) {label key : Label}
    {dialogue next : Dialogue} {message : Message}
    (hfound : registry.find? label = some (key, dialogue))
    (hcontinue : registry.continueWith key dialogue message
      = (.ok next, after)) : Books registry after := by
  obtain ⟨hheld, -⟩ := hkeyed.holds_of_find? hfound
  obtain ⟨-, happend, rfl⟩ | ⟨complete, -, -, hfree, happend, rfl⟩ :=
    continueWith_eq_ok hcontinue
  · obtain ⟨rest, hbefore, hafter⟩ := values_perm_of_hold hheld next
    exact .continued hbefore hafter (not_isEnded_of_append happend)
      (.append happend) (length_history_of_append happend) rfl
  · obtain ⟨rest, hbefore, hafter⟩ := values_perm_of_replaced hheld
      (Or.inr (not_holds_of_not_contains hfree))
      (holds_completed_iff (hkeyed.label_eq hheld))
    have hactive := not_isEnded_of_append happend
    have hsaid := length_history_of_append happend
    exact .continued hbefore hafter hactive (.append happend) hsaid rfl

theorem acceptOpening_books {supply : HalfSupply} {label : Label}
    {message : Message} {dialogue : Dialogue}
    (haccept : registry.acceptOpening supply label message
      = (.ok dialogue, after)) :
    ∃ base, Cleared registry (label.isComplete = false ∧ registry.IsFull) base
      ∧ Books base after := by
  obtain ⟨hincomplete, base, complete, hroom, hcomplete, happend, rfl⟩ :=
    acceptOpening_eq_ok haccept
  have hnew : ∀ another, ¬ base.Holds complete another := by
    apply not_holds_of_unused
    rw [hcomplete]
    exact Or.inr (supply.next_not_mem base.usedHalves)
  have hcleared :=
    (cleared_of_makeRoom hroom).congr (and_iff_right hincomplete).symm
  rw [← specification_of_makeRoom_ok hroom] at happend
  exact ⟨base, hcleared, .opened (values_perm_of_added hnew holds_hold_iff)
    (.append happend) (length_history_of_append happend) rfl⟩

theorem receiveMessage_books (hkeyed : registry.Keyed) {supply : HalfSupply}
    {message : Message} {sender : Address} {dialogue : Dialogue}
    (hreceive : registry.receiveMessage supply message sender
      = (.ok dialogue, after)) :
    ∃ base,
      Cleared registry (registry.Admits message sender ∧ registry.IsFull) base
        ∧ Books base after := by
  obtain ⟨hprotocol, hsender, label, rfl,
    ⟨key, prior, hfound, hcontinue⟩ | ⟨hunknown, hopener, haccept⟩⟩ :=
    receiveMessage_eq_ok hreceive
  · refine ⟨registry, cleared_of_not ?_,
      continueWith_books hkeyed hfound hcontinue⟩
    rintro ⟨hadmits, -⟩
    rw [hadmits.unknown] at hfound
    cases hfound
  · obtain ⟨base, hcleared, hbooks⟩ := acceptOpening_books haccept
    refine ⟨base, hcleared.congr (and_congr_left fun _ => ?_), hbooks⟩
    exact ⟨fun hincomplete =>
        ⟨hprotocol, hsender, hunknown, hopener, hincomplete⟩,
      fun hadmits => hadmits.incomplete⟩

theorem endDialogue_books {label : Label} {state : EndState}
    (hend : registry.endDialogue label state = (.ok (), after)) :
    Books registry after := by
  obtain ⟨key, dialogue, next, hfound, hfinish, rfl⟩ := endDialogue_eq_ok hend
  obtain ⟨-, hheld⟩ := find?_eq_some_iff_resolve?.mp hfound
  obtain ⟨rest, hbefore, hafter⟩ := values_perm_of_hold hheld next
  obtain ⟨hactive, -, hnext⟩ := Dialogue.finish_eq_ok_iff.mp hfinish
  have hsaid : next.history.length = dialogue.history.length := by
    rw [hnext]
    rfl
  exact .finished hbefore hafter hactive (.finish hfinish) hsaid rfl

theorem books_of_ok (hkeyed : registry.Keyed) {operation : Operation}
    {answer : Answer} (hok : (registry.perform operation).1 = .ok answer)
    (hnot : operation ≠ .evict) :
    ∃ base,
      Cleared registry (operation.NeedsRoom registry ∧ registry.IsFull) base
        ∧ Books base (registry.perform operation).2 := by
  cases operation with
  | openWith supply performative fields opponent =>
    obtain ⟨⟨label, message⟩, hopen⟩ := Outcome.exists_of_mapResult hok
    exact openWith_books hopen
  | send supply performative fields opponent label =>
    obtain ⟨message, hsend⟩ := Outcome.exists_of_mapResult hok
    rcases send_cases hsend with
      ⟨rfl, opening, hopen, hresult⟩ | ⟨named, rfl, ⟨-, hreply⟩ | hfail⟩
    · cases opening with
      | error cause => cases hresult
      | ok opening =>
        obtain ⟨base, hcleared, hbooks⟩ := openWith_books hopen
        refine ⟨base, hcleared.congr (and_congr_left fun _ => ?_), hbooks⟩
        exact (and_iff_right rfl).symm
    · refine ⟨registry, cleared_of_not ?_, reply_books hreply⟩
      rintro ⟨⟨hunnamed, -⟩, -⟩
      cases hunnamed
    · cases (Prod.mk.inj hfail).1
  | reply label performative fields =>
    obtain ⟨message, hreply⟩ := Outcome.exists_of_mapResult hok
    exact ⟨registry, cleared_of_not And.left, reply_books hreply⟩
  | receive supply payload sender =>
    obtain ⟨⟨dialogue, message⟩, hreceive⟩ := Outcome.exists_of_mapResult hok
    obtain ⟨hdecode, hmessage⟩ := receive_eq_ok hreceive
    obtain ⟨base, hcleared, hbooks⟩ := receiveMessage_books hkeyed hmessage
    refine ⟨base, hcleared.congr (and_congr_left fun _ => ?_), hbooks⟩
    constructor
    · exact fun hadmits => ⟨message, hdecode, hadmits⟩
    · rintro ⟨other, hother, hadmits⟩
      rw [hdecode] at hother
      cases hother
      exact hadmits
  | receiveMessage supply message sender =>
    obtain ⟨dialogue, hreceive⟩ := Outcome.exists_of_mapResult hok
    exact receiveMessage_books hkeyed hreceive
  | endDialogue label state =>
    obtain ⟨⟨⟩, hend⟩ := Outcome.exists_of_mapResult hok
    exact ⟨registry, cleared_of_not And.left, endDialogue_books hend⟩
  | evict => exact absurd rfl hnot

/-- Whatever is asked, the ended dialogues are dropped first, if it comes to
that, and then at most one dialogue moves, together with its counters. -/
theorem perform_books (hkeyed : registry.Keyed) (operation : Operation) :
    ∃ base, Cleared registry (operation.Evicts registry) base
      ∧ Books base (registry.perform operation).2 := by
  by_cases hevict : operation = .evict
  · subst hevict
    exact ⟨registry.evictEnded,
      ⟨fun _ => rfl, fun hnot => absurd (Or.inl rfl) hnot⟩, .refused .uncounted⟩
  · have hiff : operation.NeedsRoom registry ∧ registry.IsFull ↔
        operation.Evicts registry := (or_iff_right hevict).symm
    cases hresult : (registry.perform operation).1 with
    | ok answer =>
      obtain ⟨base, hcleared, hbooks⟩ := books_of_ok hkeyed hresult hevict
      exact ⟨base, hcleared.congr hiff, hbooks⟩
    | error cause =>
      obtain ⟨-, base, hcleared, hrefused⟩ := cleared_of_error hresult
      exact ⟨base, hcleared.congr hiff, .refused hrefused⟩

end Operations

/-! ## Dialogues that were dropped -/

instance (registry : Registry) (message : Message) (sender : Address) :
    Decidable (registry.Admits message sender) :=
  decidable_of_iff
    (message.protocol = registry.specification.id
      ∧ sender ≠ registry.address
      ∧ (registry.find?
        ⟨message.routing.reference, registry.address, sender⟩).isNone = true
      ∧ message.isOpener = true
      ∧ message.routing.reference.isComplete = false)
    ⟨fun ⟨hprotocol, hsender, hunknown, hopener, hincomplete⟩ =>
      ⟨hprotocol, hsender, Option.isNone_iff_eq_none.mp hunknown, hopener,
        hincomplete⟩,
    fun hadmits => ⟨hadmits.protocol_eq, hadmits.sender_ne,
      Option.isNone_iff_eq_none.mpr hadmits.unknown, hadmits.opener,
      hadmits.incomplete⟩⟩

instance (registry : Registry) (operation : Operation) :
    Decidable (operation.NeedsRoom registry) :=
  match operation with
  | .openWith _ _ _ _ => inferInstanceAs (Decidable (_ ≠ _))
  | .send _ _ _ _ none => decidable_of_iff _ (and_iff_right rfl).symm
  | .send _ _ _ _ (some _) => isFalse fun hneeds => nomatch hneeds.1
  | .receive _ payload sender =>
    match hdecode : Message.decode registry.specification
        registry.limits.payload payload with
    | .ok message =>
      decidable_of_iff (registry.Admits message sender)
        ⟨fun hadmits => ⟨message, hdecode, hadmits⟩,
          fun ⟨_, hother, hadmits⟩ =>
            Except.ok.inj (hdecode.symm.trans hother) ▸ hadmits⟩
    | .error _ =>
      isFalse fun ⟨_, hother, _⟩ => nomatch hdecode.symm.trans hother
  | .receiveMessage _ message sender =>
    inferInstanceAs (Decidable (registry.Admits message sender))
  | .reply _ _ _ => isFalse id
  | .endDialogue _ _ => isFalse id
  | .evict => isFalse id

/-- The dialogues that an operation drops. -/
def dropped (registry : Registry) (operation : Operation) : List Dialogue :=
  let ended := registry.dialogues.values.filter Dialogue.isEnded
  match operation with
  | .evict => ended
  | operation =>
    if operation.NeedsRoom registry ∧ registry.IsFull then ended else []

/-- The dialogues that some operations drop, each as it is then. -/
def droppedBy (registry : Registry) : List Operation → List Dialogue
  | [] => []
  | operation :: rest =>
    registry.dropped operation ++ (registry.perform operation).2.droppedBy rest

/-- Every dialogue there has been after some operations: those that are held, and
those that were dropped on the way. -/
def chronicle (registry : Registry) (operations : List Operation) :
    List Dialogue :=
  (registry.run operations).dialogues.values ++ registry.droppedBy operations

section Chronicle

variable {registry before after base : Registry} {states : List EndState}
  {gone : List Dialogue}

theorem dropped_of_evicts {operation : Operation}
    (hevicts : operation.Evicts registry) :
    registry.dropped operation
      = registry.dialogues.values.filter Dialogue.isEnded := by
  cases operation with
  | evict => rfl
  | _ =>
    rcases hevicts with hnot | hneeds
    · cases hnot
    · exact if_pos hneeds

theorem dropped_of_not_evicts {operation : Operation}
    (hkeeps : ¬ operation.Evicts registry) : registry.dropped operation = [] := by
  cases operation with
  | evict => exact absurd (Or.inl rfl) hkeeps
  | _ =>
    rw [dropped]
    · exact if_neg fun hneeds => hkeeps (Or.inr hneeds)
    · exact Operation.noConfusion

theorem values_evictEnded (registry : Registry) :
    registry.evictEnded.dialogues.values
      = registry.dialogues.values.filter fun dialogue => !dialogue.isEnded := by
  simp only [OrderedMap.values, evictEnded, OrderedMap.filter, List.filter_map]
  rfl

/-- What is dropped and what stays are all that was held. -/
theorem values_perm_of_cleared {operation : Operation}
    (hcleared : Cleared registry (operation.Evicts registry) base) :
    registry.dialogues.values.Perm
      (base.dialogues.values ++ registry.dropped operation) := by
  by_cases hevicts : operation.Evicts registry
  · rw [hcleared.eq_evictEnded hevicts, dropped_of_evicts hevicts,
      values_evictEnded]
    exact ((List.filter_append_perm _ _).symm).trans List.perm_append_comm
  · rw [hcleared.eq_self hevicts, dropped_of_not_evicts hevicts,
      List.append_nil]

theorem Cleared.stats_eq {condition : Prop}
    (hcleared : Cleared registry condition base) :
    base.stats = registry.stats := by
  cases hcleared.vacated with
  | same => rfl
  | cleared => rfl

theorem Cleared.specification_eq {condition : Prop}
    (hcleared : Cleared registry condition base) :
    base.specification = registry.specification := by
  cases hcleared.vacated with
  | same => rfl
  | cleared => rfl

end Chronicle

/-! ## The counters after any operations -/

/-- The counters of a registry agree with some dialogues, and neither these nor
their messages are more than the steps taken. -/
structure Reconciles (registry : Registry) (steps : Nat)
    (dialogues : List Dialogue) : Prop where
  declared : ∀ {performative outcome},
    registry.specification.outcome? performative = some outcome →
      outcome ∈ registry.specification.endStates
  accounts : registry.stats.Accounts registry.specification.endStates dialogues
  length_le : dialogues.length ≤ steps
  messageCount_le : messageCount dialogues ≤ steps

section Run

variable {registry before after base : Registry} {steps : Nat}
  {dialogues others gone : List Dialogue}

theorem Reconciles.perm (hreconciles : registry.Reconciles steps dialogues)
    (hperm : dialogues.Perm others) : registry.Reconciles steps others where
  declared := hreconciles.declared
  accounts := hreconciles.accounts.perm hperm
  length_le := hperm.length_eq ▸ hreconciles.length_le
  messageCount_le := messageCount_of_perm hperm ▸ hreconciles.messageCount_le

theorem Reconciles.cleared {operation : Operation}
    (hreconciles : registry.Reconciles steps (registry.dialogues.values ++ gone))
    (hcleared : Cleared registry (operation.Evicts registry) base) :
    base.Reconciles steps
      (base.dialogues.values ++ (registry.dropped operation ++ gone)) := by
  have hperm : (registry.dialogues.values ++ gone).Perm
      (base.dialogues.values ++ (registry.dropped operation ++ gone)) := by
    rw [← List.append_assoc]
    exact (values_perm_of_cleared hcleared).append_right gone
  have hspecification := hcleared.specification_eq
  obtain ⟨hdeclared, haccounts, hlength, hmessages⟩ := hreconciles.perm hperm
  refine ⟨?_, ?_, hlength, hmessages⟩
  · rw [hspecification]
    exact hdeclared
  · rw [hspecification, hcleared.stats_eq]
    exact haccounts

/-- A dialogue is put in the place of another one, with at most one message
more. -/
theorem Reconciles.replace {dialogue next : Dialogue}
    (hreconciles : before.Reconciles steps (dialogue :: dialogues))
    (hspecification : after.specification = before.specification)
    (hsaid : next.history.length ≤ dialogue.history.length + 1)
    (haccounts : after.stats.Accounts before.specification.endStates
      (next :: dialogues)) :
    after.Reconciles (steps + 1) (next :: dialogues) where
  declared := hspecification ▸ hreconciles.declared
  accounts := hspecification ▸ haccounts
  length_le := Nat.le_succ_of_le hreconciles.length_le
  messageCount_le := by
    have hbefore := hreconciles.messageCount_le
    rw [messageCount_cons] at hbefore ⊢
    omega

/-- One step moves the counters as it moves the dialogues that are held; those
that were dropped before stay as they were. -/
theorem Books.reconciles (hbooks : Books before after)
    (hspecification : after.specification = before.specification)
    (hreconciles : before.Reconciles steps (before.dialogues.values ++ gone)) :
    after.Reconciles (steps + 1) (after.dialogues.values ++ gone) := by
  have ⟨hdeclared, haccounts, hlength, hmessages⟩ := hreconciles
  have hends : ∀ {next : Dialogue}, next.IsAdvanced before.specification →
      ∀ {outcome}, next.state = .ended (some outcome) →
        outcome ∈ before.specification.endStates :=
    fun hadvanced _ hstate => hadvanced.mem_endStates hdeclared hstate
  cases hbooks with
  | refused hrefused =>
    rw [hrefused.unchanged.1]
    refine ⟨hspecification ▸ hdeclared, hspecification ▸ ?_,
      Nat.le_succ_of_le hlength, Nat.le_succ_of_le hmessages⟩
    cases hrefused with
    | uncounted => exact haccounts
    | rejected => exact haccounts.congr rfl rfl fun role => by cases role <;> rfl
    | unread => exact haccounts.congr rfl rfl fun role => by cases role <;> rfl
  | @opened dialogue hvalues hadvanced hsaid hstats =>
    suffices after.Reconciles (steps + 1)
        (dialogue :: (before.dialogues.values ++ gone)) from
      this.perm (hvalues.append_right gone).symm
    refine ⟨hspecification ▸ hdeclared, ?_, Nat.succ_le_succ hlength, ?_⟩
    · rw [hspecification, hstats]
      exact haccounts.recordOpened hsaid (hends hadvanced)
    · rw [messageCount_cons, hsaid, Nat.add_comm]
      exact Nat.succ_le_succ hmessages
  | continued hbefore hafter hactive hadvanced hsaid hstats =>
    have hprior := hreconciles.perm (hbefore.append_right gone)
    have hrecorded := hprior.accounts.recordAccepted hactive hsaid
      (hends hadvanced)
    rw [← hstats] at hrecorded
    have hnext := hprior.replace hspecification (Nat.le_of_eq hsaid) hrecorded
    exact hnext.perm (hafter.append_right gone).symm
  | finished hbefore hafter hactive hadvanced hsaid hstats =>
    have hprior := hreconciles.perm (hbefore.append_right gone)
    have hrecorded := hprior.accounts.recordOutcome hactive hsaid
      (hends hadvanced)
    rw [← hstats] at hrecorded
    have hnext := hprior.replace hspecification
      (Nat.le_succ_of_le (Nat.le_of_eq hsaid)) hrecorded
    exact hnext.perm (hafter.append_right gone).symm

theorem Reconciles.perform (hkeyed : registry.Keyed)
    (hreconciles : registry.Reconciles steps (registry.dialogues.values ++ gone))
    (operation : Operation) :
    let after := (registry.perform operation).2
    after.Reconciles (steps + 1)
      (after.dialogues.values ++ (registry.dropped operation ++ gone)) := by
  obtain ⟨base, hcleared, hbooks⟩ := perform_books hkeyed operation
  apply hbooks.reconciles ?_ (hreconciles.cleared hcleared)
  rw [(perform_effect registry operation).specification_eq,
    hcleared.specification_eq]

theorem Reconciles.run (hkeyed : registry.Keyed) (operations : List Operation)
    (hreconciles :
      registry.Reconciles steps (registry.dialogues.values ++ gone)) :
    (registry.run operations).Reconciles (steps + operations.length)
      (registry.chronicle operations ++ gone) := by
  induction operations generalizing registry steps gone with
  | nil =>
    rw [chronicle, droppedBy, List.append_nil]
    exact hreconciles
  | cons operation rest ih =>
    -- What this operation drops is gone for the rest of the run.
    have hrest := ih ((perform_effect registry operation).keyed hkeyed)
      (hreconciles.perform hkeyed operation)
    rw [Nat.add_right_comm] at hrest
    refine hrest.perm ?_
    simp only [chronicle, droppedBy, List.append_assoc]
    apply List.Perm.append_left
    rw [← List.append_assoc, ← List.append_assoc]
    exact List.perm_append_comm.append_right gone

theorem reconciles_empty {source : Source}
    {specification : Specification}
    (hload : Specification.load source = .ok specification) (address : Address)
    (limits : Limits) : (empty specification address limits).Reconciles 0 [] where
  declared := Specification.mem_endStates_of_outcome? hload
  accounts := Stats.accounts_nil specification.endStates
  length_le := Nat.le_refl 0
  messageCount_le := Nat.le_refl 0

end Run

/-- After fewer than `2 ^ 64` operations, with any arguments, the counters of a
registry are those of its chronicle: all dialogues, what was said in them, and
how many ended with each end state, apart for those opened here and by others.
Every outcome in the chronicle, and whatever an accepted message or an early end
may still lead to, is an end state that is counted. -/
theorem stats_reconcile {source : Source}
    {specification : Specification}
    (hload : Specification.load source = .ok specification) (address : Address)
    (limits : Limits) (operations : List Operation)
    (hfew : operations.length < 2 ^ 64) :
    let fresh := empty specification address limits
    let stats := (fresh.run operations).stats
    let dialogues := fresh.chronicle operations
    stats.opened.toNat = dialogues.length
      ∧ stats.accepted.toNat = messageCount dialogues
      ∧ (∀ outcome ∈ specification.endStates,
        (stats.endStateCount outcome).1.toNat
            = dialogues.countP (Dialogue.hasEnded .initiator outcome)
          ∧ (stats.endStateCount outcome).2.toNat
            = dialogues.countP (Dialogue.hasEnded .responder outcome))
      ∧ (∀ dialogue ∈ dialogues, ∀ outcome,
        dialogue.state = .ended (some outcome) →
          outcome ∈ specification.endStates)
      ∧ ∀ next : Dialogue, next.IsAdvanced specification → ∀ outcome,
        next.state = .ended (some outcome) → ∀ role,
          ((stats.tally role).get? outcome.name).isSome = true := by
  intro fresh stats dialogues
  have hspecification : (fresh.run operations).specification = specification :=
    specification_run fresh operations
  have hempty : fresh.Reconciles 0 (fresh.dialogues.values ++ []) :=
    reconciles_empty hload address limits
  obtain ⟨-, haccounts, hlength, hmessages⟩ :=
    hempty.run (keyed_empty specification address limits) operations
  rw [List.append_nil, Nat.zero_add] at hlength hmessages
  rw [List.append_nil, hspecification] at haccounts
  have hexact : ∀ {count : Nat}, count ≤ operations.length →
      (UInt64.ofNat count).toNat = count :=
    fun hle => UInt64.toNat_ofNat_of_lt' (Nat.lt_of_le_of_lt hle hfew)
  have hcount : ∀ role, ∀ outcome ∈ specification.endStates,
      (((stats.tally role).get? outcome.name).getD 0).toNat
        = dialogues.countP (Dialogue.hasEnded role outcome) := by
    intro role outcome hmem
    have htally := haccounts.tally role outcome.name
    rw [if_pos hmem] at htally
    rw [htally]
    exact hexact (Nat.le_trans List.countP_le_length hlength)
  refine ⟨?_, ?_, fun outcome hmem => ?_, ?_, ?_⟩
  · rw [haccounts.opened]
    exact hexact hlength
  · rw [haccounts.accepted]
    exact hexact hmessages
  · exact ⟨hcount .initiator outcome hmem, hcount .responder outcome hmem⟩
  · exact fun dialogue hmem outcome => haccounts.declared hmem
  · intro next hadvanced outcome hstate role
    have hmem := hadvanced.mem_endStates
      (Specification.mem_endStates_of_outcome? hload) hstate
    have htally := haccounts.tally role outcome.name
    rw [if_pos hmem] at htally
    rw [htally]
    rfl

/-- With room for one dialogue, Alice ends a call to Bob, calls Carol instead, who
declines, and is called by Dave. -/
def replacingOperations : List Operation :=
  let supply := HalfSupply.preferring "a" Nat.one_pos
  let query := (Negotiation.Act.cfp ⟨"books", {}⟩).toFields
  let protocol := Negotiation.specification.id
  [.openWith supply "cfp" query ⟨"bob"⟩,
    .endDialogue ⟨.opened "a", ⟨"alice"⟩, ⟨"bob"⟩⟩ ⟨"failed"⟩,
    .openWith supply "cfp" query ⟨"carol"⟩,
    .receiveMessage supply
      ⟨protocol, ⟨⟨"a", "c"⟩, 2, 1⟩, "decline", [("reason", .absent)]⟩
      ⟨"carol"⟩,
    .receiveMessage supply
      ⟨protocol, .opening (.opened "d"), "cfp", query⟩ ⟨"dave"⟩]

theorem stats_reconcile_replacing :
    let limits : Limits := { dialogues := 1 }
    let fresh := empty Negotiation.specification ⟨"alice"⟩ limits
    let later := fresh.run replacingOperations
    Specification.load Negotiation.source = .ok Negotiation.specification
      ∧ replacingOperations.length < 2 ^ 64 ∧ later.dialogues.size = 1
      ∧ later.stats.opened.toNat = 3 ∧ later.stats.accepted.toNat = 4
      ∧ (later.stats.endStateCount ⟨"failed"⟩).1.toNat = 2
      ∧ (later.stats.endStateCount ⟨"failed"⟩).2.toNat = 0 := by
  have hfew : replacingOperations.length < 2 ^ 64 := by decide
  have hreconcile := stats_reconcile Negotiation.load_source ⟨"alice"⟩
    { dialogues := 1 } replacingOperations hfew
  dsimp only at hreconcile ⊢
  obtain ⟨hopened, haccepted, hcounts, -⟩ := hreconcile
  obtain ⟨hinitiated, hother⟩ := hcounts ⟨"failed"⟩ (by decide)
  rw [hopened, haccepted, hinitiated, hother]
  exact ⟨Negotiation.load_source, hfew, by decide +kernel, by decide +kernel,
    by decide +kernel, by decide +kernel, by decide +kernel⟩

end Registry

end Colloquy
