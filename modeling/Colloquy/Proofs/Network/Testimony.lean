import Colloquy.Proofs.Network.Schedule
import Colloquy.Proofs.Registry.Completion

/-!
# What two agents know of each other

Two registries and the letters between them, as long as nothing is evicted.
Main statement: whatever is lost, duplicated or reordered, every letter stands
in a dialogue of its sender, and what stands in a dialogue as the opponent's
stands in the opponent's dialogue as well.  It is of no importance whether the
two agents choose different halves: an initiator accepts nothing from another
initiator, since neither can be the first to complete its reference.
-/

namespace Colloquy.Network

open Registry

/-- A dialogue that the other party holds for the same conversation: it is held
with this party, under the same initiator half. -/
structure Faces (network : Network) (party : Party) (key other : Label)
    (another : Dialogue) : Prop where
  held : (network.registry party.other).Holds other another
  opponent_eq : other.opponent = network.address party
  initiator_eq : other.reference.initiator = key.reference.initiator

/-- A dialogue in which a letter was sent.  A responder sends under the reference
of its dialogue, an initiator perhaps before that was complete. -/
structure Contains (registry : Registry) (key : Label) (dialogue : Dialogue)
    (recipient : Address) (message : Message) : Prop where
  held : registry.Holds key dialogue
  opponent_eq : key.opponent = recipient
  initiator_eq :
    key.reference.initiator = message.routing.reference.initiator
  said : (dialogue.role, message) ∈ dialogue.history
  reference_eq : dialogue.role = .responder →
    message.routing.reference = key.reference

/-- Every dialogue that has ended is still held. -/
def Keeps (before after : Network) : Prop :=
  ∀ party key dialogue, (before.registry party).Holds key dialogue →
    dialogue.isEnded = true → (after.registry party).Holds key dialogue

/-- How two registries and the letters between them belong together. -/
structure Attested (specification : Specification) (network : Network) :
    Prop where
  specification_eq : ∀ party,
    (network.registry party).specification = specification
  orderly : ∀ party, (network.registry party).Orderly
  /-- Every letter stands in a dialogue of its sender. -/
  sent : ∀ {letter}, letter ∈ network.letters → ∃ party key dialogue,
    letter.sender = network.address party
      ∧ Contains (network.registry party) key dialogue letter.recipient
          letter.message
  /-- What one party has heard the other one has said. -/
  heard : ∀ {party key dialogue message},
    (network.registry party).Holds key dialogue →
    key.opponent = network.address party.other →
    (dialogue.role.counterpart, message) ∈ dialogue.history →
    ∃ other another, Faces network party key other another
      ∧ another.role = dialogue.role.counterpart
      ∧ (another.role, message) ∈ another.history
  /-- A label that an initiator has completed is the mirror of the
  responder's. -/
  mirrored : ∀ {party key dialogue},
    (network.registry party).Holds key dialogue →
    key.opponent = network.address party.other →
    dialogue.role = .initiator → key.isComplete = true →
    ∃ another, (network.registry party.other).Holds key.mirror another

section Testimony

variable {specification : Specification} {network before after : Network}
  {party : Party} {event : Event} {key other : Label}
  {dialogue another : Dialogue}

/-! ## The two sides of a conversation -/

theorem Attested.indexed (hattested : Attested specification network)
    (party : Party) : (network.registry party).Indexed :=
  (hattested.orderly party).indexed

theorem Attested.sound (hattested : Attested specification network)
    (party : Party) : (network.registry party).Sound :=
  (hattested.orderly party).sound

theorem Attested.eq_of_faces (hattested : Attested specification network)
    {later : Label} {further : Dialogue}
    (hfaces : Faces network party key other another)
    (hagain : Faces network party key later further) :
    other = later ∧ another = further := by
  have hkey := (hattested.indexed party.other).unique hfaces.held
    hagain.held (hfaces.initiator_eq.trans hagain.initiator_eq.symm)
    (hfaces.opponent_eq.trans hagain.opponent_eq.symm)
  have hheld := hfaces.held
  rw [hkey] at hheld
  exact ⟨hkey, hheld.eq hagain.held⟩

theorem Faces.rebase {later : Label}
    (hfaces : Faces network party key other another)
    (hinitiator : later.reference.initiator = key.reference.initiator) :
    Faces network party later other another :=
  ⟨hfaces.held, hfaces.opponent_eq, hfaces.initiator_eq.trans hinitiator.symm⟩

/-- What faces the dialogue that a dialogue faces is that dialogue. -/
theorem Attested.eq_of_faces_back (hattested : Attested specification network)
    (hheld : (network.registry party).Holds key dialogue)
    (hopponent : key.opponent = network.address party.other)
    (hfaces : Faces network party key other another) {later : Label}
    {further : Dialogue}
    (hback : Faces network party.other other later further) :
    later = key ∧ further = dialogue := by
  have hlater := hback.held
  rw [Party.other_other] at hlater
  have hkey := (hattested.indexed party).unique hlater hheld
    (hback.initiator_eq.trans hfaces.initiator_eq)
    (hback.opponent_eq.trans hopponent.symm)
  rw [hkey] at hlater
  exact ⟨hkey, hlater.eq hheld⟩

theorem Faces.opponent_eq_back (hfaces : Faces network party key other another) :
    other.opponent = network.address party.other.other := by
  rw [Party.other_other]
  exact hfaces.opponent_eq

/-- A letter from the other party stands in a dialogue that faces the one it is
meant for. -/
theorem Attested.faces_of_letter (hattested : Attested specification network)
    {message : Message}
    (hne : network.address party.other ≠ network.address party)
    (hposted : ⟨network.address party.other, network.address party, message⟩
      ∈ network.letters)
    (hinitiator : message.routing.reference.initiator
      = key.reference.initiator) :
    ∃ other another, Faces network party key other another
      ∧ Contains (network.registry party.other) other another
          (network.address party) message := by
  obtain ⟨author, other, another, hauthor, hcontains⟩ :=
    hattested.sent hposted
  have heq : author = party.other := by
    rcases party.eq_or_eq_other author with rfl | heq
    · exact absurd hauthor hne
    · exact heq
  subst heq
  exact ⟨other, another,
    ⟨hcontains.held, hcontains.opponent_eq,
      hcontains.initiator_eq.trans hinitiator⟩, hcontains⟩

/-- What faces a responder's dialogue is an initiator's, since the responder has
heard the opener. -/
theorem Attested.role_of_faces_responder
    (hattested : Attested specification network)
    (hheld : (network.registry party).Holds key dialogue)
    (hopponent : key.opponent = network.address party.other)
    (hrole : dialogue.role = .responder)
    (hfaces : Faces network party key other another) :
    another.role = .initiator := by
  obtain ⟨opener, rest, hopens⟩ := (hattested.sound party).opens hheld
  have hopener : (dialogue.role.counterpart, opener) ∈ dialogue.history := by
    rw [hrole, hopens]
    exact List.mem_cons_self
  obtain ⟨later, further, hagain, hinitiator, -⟩ :=
    hattested.heard hheld hopponent hopener
  rw [(hattested.eq_of_faces hfaces hagain).2, hinitiator, hrole]
  rfl

/-- What faces an initiator's dialogue and has sent something under a complete
reference is a responder's: an initiator would have heard an answer from the
dialogue that it faces, which is an initiator's itself. -/
theorem Attested.role_of_complete (hattested : Attested specification network)
    (hheld : (network.registry party).Holds key dialogue)
    (hopponent : key.opponent = network.address party.other)
    (hrole : dialogue.role = .initiator)
    (hfaces : Faces network party key other another) {message : Message}
    (hsaid : (another.role, message) ∈ another.history)
    (hcomplete : message.routing.reference.isComplete = true) :
    another.role = .responder := by
  cases hanother : another.role with
  | responder => rfl
  | initiator =>
    have hmatches := (hattested.orderly party.other).matched hfaces.held
    have hclosed : other.isComplete = true := by
      rcases hmatches.references _ hsaid with hsame | hopening
      · rw [Label.isComplete, ← hsame]
        exact hcomplete
      · rw [hopening, Reference.isComplete_opening] at hcomplete
        cases hcomplete
    obtain ⟨answer, hanswer⟩ := (hmatches.answered hanother).mp hclosed
    obtain ⟨later, further, hback, hopposite, -⟩ :=
      hattested.heard hfaces.held hfaces.opponent_eq_back hanswer
    obtain ⟨-, rfl⟩ :=
      hattested.eq_of_faces_back hheld hopponent hfaces hback
    rw [hrole, hanother] at hopposite
    cases hopposite

/-! ## One step -/

theorem Contains.continues {registry next : Registry} {later : Label}
    {recipient : Address} {message : Message} {further : Dialogue}
    (hcontains : Contains registry key dialogue recipient message)
    (hsound : registry.Sound) (hheld : next.Holds later further)
    (hcontinues : Continues key dialogue later further) :
    Contains next later further recipient message where
  held := hheld
  opponent_eq := hcontinues.opponent_eq.trans hcontains.opponent_eq
  initiator_eq := hcontinues.initiator_eq.trans hcontains.initiator_eq
  said := by
    rw [hcontinues.role]
    exact hcontinues.mem hcontains.said
  reference_eq hrole := by
    rw [hcontinues.role] at hrole
    rw [hcontinues.complete (hsound.complete hcontains.held hrole)]
    exact hcontains.reference_eq hrole

/-- What was heard names the initiator's half, since it was posted. -/
theorem Attested.isNamed (hattested : Attested specification before)
    (hturn : Turn before after party event) : event.IsNamed := by
  cases event with
  | silent => exact trivial
  | sent opponent message => exact trivial
  | heard sender message =>
    obtain ⟨author, key, dialogue, -, hcontains⟩ :=
      hattested.sent (hturn.posted rfl)
    have hinitiator :=
      (hattested.indexed author).initiator_ne hcontains.held
    rw [hcontains.initiator_eq] at hinitiator
    exact hinitiator

theorem Turn.address_eq (hturn : Turn before after party event) (one : Party) :
    after.address one = before.address one := by
  rcases party.eq_or_eq_other one with rfl | rfl
  · exact hturn.effect.address_eq
  · exact congrArg Registry.address hturn.idle

theorem Turn.specification_eq (hturn : Turn before after party event)
    (one : Party) :
    (after.registry one).specification
      = (before.registry one).specification := by
  rcases party.eq_or_eq_other one with rfl | rfl
  · exact hturn.effect.specification_eq
  · exact congrArg Registry.specification hturn.idle

theorem Attested.orderly_after (hattested : Attested specification before)
    (hturn : Turn before after party event) (one : Party) :
    (after.registry one).Orderly := by
  rcases party.eq_or_eq_other one with rfl | rfl
  · exact hturn.effect.orderly (hattested.isNamed hturn) (hattested.orderly one)
  · rw [hturn.idle]
    exact hattested.orderly party.other

/-- Nobody holds a dialogue with an agent of their own address. -/
theorem Attested.address_ne (hattested : Attested specification before)
    (hturn : Turn before after party event) {one : Party}
    (hheld : (after.registry one).Holds key dialogue)
    (hopponent : key.opponent = before.address one.other) :
    before.address one.other ≠ before.address one := by
  rw [← hopponent, ← hturn.address_eq]
  exact (hattested.orderly_after hturn one).indexed.opponent_ne hheld

/-- Without evictions every dialogue goes on. -/
theorem Attested.continues (hattested : Attested specification before)
    (hturn : Turn before after party event) (hkeeps : Keeps before after)
    {one : Party} (hheld : (before.registry one).Holds key dialogue) :
    ∃ later next, (after.registry one).Holds later next
      ∧ Continues key dialogue later next := by
  rcases party.eq_or_eq_other one with rfl | rfl
  · rcases hturn.effect.continues (hattested.indexed one) hheld with
      hcontinues | hended
    · exact hcontinues
    · exact ⟨key, dialogue, hkeeps _ _ _ hheld hended,
        Continues.refl key dialogue⟩
  · rw [hturn.idle]
    exact ⟨key, dialogue, hheld, Continues.refl key dialogue⟩

theorem Attested.sent_after (hattested : Attested specification before)
    (hturn : Turn before after party event) (hkeeps : Keeps before after)
    {letter : Letter} (hletter : letter ∈ after.letters) :
    ∃ author key dialogue, letter.sender = after.address author
      ∧ Contains (after.registry author) key dialogue letter.recipient
          letter.message := by
  rw [hturn.letters] at hletter
  rcases List.mem_append.mp hletter with hold | hnew
  · obtain ⟨author, key, dialogue, hauthor, hcontains⟩ := hattested.sent hold
    obtain ⟨later, next, hheld, hcontinues⟩ :=
      hattested.continues hturn hkeeps hcontains.held
    rw [← hturn.address_eq] at hauthor
    exact ⟨author, later, next, hauthor,
      hcontains.continues (hattested.sound author) hheld hcontinues⟩
  · cases event with
    | silent => simp [Event.letters] at hnew
    | heard sender message => simp [Event.letters] at hnew
    | sent opponent message =>
      simp only [Event.letters, List.mem_singleton] at hnew
      subst hnew
      obtain ⟨key, dialogue, hheld, hopponent, hreference, hsaid⟩ :=
        hturn.effect.outgoing (hattested.indexed party)
      refine ⟨party, key, dialogue, (hturn.address_eq party).symm, hheld,
        hopponent, ?_, hsaid, fun _ => hreference⟩
      exact congrArg Reference.initiator hreference.symm

/-- A dialogue in which a letter was accepted faces the one that it comes from,
and that has the other role. -/
theorem Attested.faces_of_accepted (hattested : Attested specification before)
    (hturn : Turn before after party event) {message : Message}
    (hheld : (after.registry party).Holds key dialogue)
    (hopponent : key.opponent = before.address party.other)
    (hevent : event = .heard key.opponent message)
    (hinitiator : message.routing.reference.initiator
      = key.reference.initiator)
    (hprior : dialogue.role = .responder
        ∧ message.routing.reference.isComplete = false
      ∨ ∃ earlier prior, (before.registry party).Holds earlier prior
        ∧ Continues earlier prior key dialogue
        ∧ (prior.role = .initiator →
          message.routing.reference.isComplete = true)) :
    ∃ other another, Faces before party key other another
      ∧ Contains (before.registry party.other) other another
          (before.address party) message
      ∧ another.role = dialogue.role.counterpart := by
  have hposted := hturn.posted hevent
  rw [hopponent] at hposted
  obtain ⟨other, another, hfaces, hcontains⟩ := hattested.faces_of_letter
    (hattested.address_ne hturn hheld hopponent) hposted hinitiator
  refine ⟨other, another, hfaces, hcontains, ?_⟩
  rcases hprior with ⟨hresponder, hincomplete⟩ |
    ⟨earlier, prior, hbefore, hcontinues, hcomplete⟩
  · -- Only an initiator sends under a reference that is not complete.
    rw [hresponder]
    cases hanother : another.role with
    | initiator => rfl
    | responder =>
      have hclosed :=
        (hattested.sound party.other).complete hfaces.held hanother
      rw [Label.isComplete, ← hcontains.reference_eq hanother, hincomplete]
        at hclosed
      cases hclosed
  · have hearlier := hfaces.rebase hcontinues.initiator_eq.symm
    have hwith : earlier.opponent = before.address party.other :=
      hcontinues.opponent_eq.symm.trans hopponent
    rw [hcontinues.role]
    cases hrole : prior.role with
    | initiator =>
      exact hattested.role_of_complete hbefore hwith hrole hearlier
        hcontains.said (hcomplete hrole)
    | responder =>
      exact hattested.role_of_faces_responder hbefore hwith hrole hearlier

theorem Attested.heard_after (hattested : Attested specification before)
    (hturn : Turn before after party event) (hkeeps : Keeps before after)
    {one : Party} {message : Message}
    (hheld : (after.registry one).Holds key dialogue)
    (hopponent : key.opponent = after.address one.other)
    (hmem : (dialogue.role.counterpart, message) ∈ dialogue.history) :
    ∃ other another, Faces after one key other another
      ∧ another.role = dialogue.role.counterpart
      ∧ (another.role, message) ∈ another.history := by
  rw [hturn.address_eq] at hopponent
  have hfacesAfter : ∀ {other another}, one = party →
      Faces before one key other another →
      Faces after one key other another := by
    rintro other another rfl hfaces
    refine ⟨?_, ?_, hfaces.initiator_eq⟩
    · rw [hturn.idle]
      exact hfaces.held
    · rw [hturn.address_eq]
      exact hfaces.opponent_eq
  rcases party.eq_or_eq_other one with rfl | rfl
  · have hindexed := hattested.indexed one
    have horigin := hturn.effect.origin hindexed hheld
    rcases horigin.incoming hindexed hmem with
      ⟨earlier, prior, hbefore, hcontinues, hold⟩ |
      ⟨hevent, hinitiator, hprior⟩
    · obtain ⟨other, another, hfaces, hrole, hsaid⟩ := hattested.heard hbefore
        (hcontinues.opponent_eq.symm.trans hopponent) hold
      rw [← hcontinues.role] at hrole
      exact ⟨other, another,
        hfacesAfter rfl (hfaces.rebase hcontinues.initiator_eq), hrole, hsaid⟩
    · obtain ⟨other, another, hfaces, hcontains, hrole⟩ :=
        hattested.faces_of_accepted hturn hheld hopponent hevent hinitiator
          hprior
      exact ⟨other, another, hfacesAfter rfl hfaces, hrole, hcontains.said⟩
  · rw [hturn.idle] at hheld
    obtain ⟨other, another, hfaces, hrole, hsaid⟩ :=
      hattested.heard hheld hopponent hmem
    obtain ⟨later, next, hlater, hcontinues⟩ :=
      hattested.continues hturn hkeeps hfaces.held
    refine ⟨later, next, ⟨hlater, ?_, ?_⟩, ?_, ?_⟩
    · rw [hturn.address_eq]
      exact hcontinues.opponent_eq.trans hfaces.opponent_eq
    · exact hcontinues.initiator_eq.trans hfaces.initiator_eq
    · exact hcontinues.role.trans hrole
    · rw [hcontinues.role]
      exact hcontinues.mem hsaid

theorem Attested.mirrored_after (hattested : Attested specification before)
    (hturn : Turn before after party event) (hkeeps : Keeps before after)
    {one : Party} (hheld : (after.registry one).Holds key dialogue)
    (hopponent : key.opponent = after.address one.other)
    (hrole : dialogue.role = .initiator) (hcomplete : key.isComplete = true) :
    ∃ another, (after.registry one.other).Holds key.mirror another := by
  rw [hturn.address_eq] at hopponent
  rcases party.eq_or_eq_other one with rfl | rfl
  · rw [hturn.idle]
    have hindexed := hattested.indexed one
    rcases (hturn.effect.origin hindexed hheld).completion hindexed hrole
      hcomplete with ⟨prior, hbefore, hprior⟩ |
      ⟨message, earlier, prior, hevent, hreference, hbefore, hcontinues⟩
    · exact hattested.mirrored hbefore hopponent hprior hcomplete
    · have hclosed : message.routing.reference.isComplete = true := by
        rw [hreference]
        exact hcomplete
      obtain ⟨other, another, hfaces, hcontains, hopposite⟩ :=
        hattested.faces_of_accepted hturn hheld hopponent hevent
          (congrArg Reference.initiator hreference)
          (Or.inr ⟨earlier, prior, hbefore, hcontinues, fun _ => hclosed⟩)
      have hresponder : another.role = .responder := by
        rw [hopposite, hrole]
        rfl
      have hself := (hattested.orderly_after hturn one).indexed.self_eq hheld
      have hmirror : other = key.mirror := by
        apply Label.ext
        · exact (hcontains.reference_eq hresponder).symm.trans hreference
        · rw [(hattested.indexed one.other).self_eq hfaces.held]
          exact hopponent.symm
        · rw [hfaces.opponent_eq, ← hturn.address_eq]
          exact hself.symm
      rw [← hmirror]
      exact ⟨another, hfaces.held⟩
  · rw [hturn.idle] at hheld
    obtain ⟨another, hanother⟩ :=
      hattested.mirrored hheld hopponent hrole hcomplete
    obtain ⟨later, next, hlater, hcontinues⟩ :=
      hattested.continues hturn hkeeps hanother
    rw [hcontinues.complete hcomplete] at hlater
    exact ⟨next, hlater⟩

theorem Attested.turn (hattested : Attested specification before)
    (hturn : Turn before after party event) (hkeeps : Keeps before after) :
    Attested specification after where
  specification_eq one :=
    (hturn.specification_eq one).trans (hattested.specification_eq one)
  orderly := hattested.orderly_after hturn
  sent := hattested.sent_after hturn hkeeps
  heard := hattested.heard_after hturn hkeeps
  mirrored := hattested.mirrored_after hturn hkeeps

theorem attested_start (specification : Specification)
    (address : Party → Address) (limits : Party → Limits) :
    Attested specification (start specification address limits) where
  specification_eq _ := rfl
  orderly party := orderly_empty specification (address party) (limits party)
  sent hletter := absurd hletter List.not_mem_nil
  heard hheld := absurd hheld not_holds_empty
  mirrored hheld := absurd hheld not_holds_empty

/-- A party that holds no ended dialogue drops none. -/
theorem keeps_perform {operation : Operation}
    (hopen : ∀ entry ∈ (network.registry party).dialogues.entries,
      entry.2.isEnded = false) :
    Keeps network (network.perform party operation) := by
  intro one key dialogue hheld hended
  rcases party.eq_or_eq_other one with rfl | rfl
  · have hactive := hopen _ (OrderedMap.get?_eq_some_iff.mp hheld)
    rw [hended] at hactive
    cases hactive
  · rw [registry_perform_other]
    exact hheld

/-! ## The two histories -/

/-- The histories of an initiator and of the responder that faces it are records
of one conversation. -/
theorem Attested.areRecords (hattested : Attested specification network)
    (hheld : (network.registry party).Holds key dialogue)
    (hrole : dialogue.role = .initiator)
    (hopponent : key.opponent = network.address party.other)
    (hfaces : Faces network party key other another)
    (hresponder : another.role = .responder) :
    History.AreRecords specification dialogue.history another.history := by
  constructor
  · rw [← hattested.specification_eq party]
    exact ((hattested.sound party).consistent hheld).path
  · rw [← hattested.specification_eq party.other]
    exact ((hattested.sound party.other).consistent hfaces.held).path
  · intro sender message rest hopening
    obtain ⟨opener, answers, hopens⟩ :=
      (hattested.sound party.other).opens hfaces.held
    rw [hopening] at hopens
    cases hopens
    rfl
  · intro message hmem
    obtain ⟨later, further, hagain, hopposite, hsaid⟩ :=
      hattested.heard hheld hopponent (by rw [hrole]; exact hmem)
    rw [(hattested.eq_of_faces hfaces hagain).2]
    rw [hopposite, hrole] at hsaid
    exact hsaid
  · intro message hmem
    obtain ⟨later, further, hback, hopposite, hsaid⟩ := hattested.heard
      hfaces.held hfaces.opponent_eq_back (by rw [hresponder]; exact hmem)
    obtain ⟨-, rfl⟩ := hattested.eq_of_faces_back hheld hopponent hfaces hback
    rw [hopposite, hresponder] at hsaid
    exact hsaid

end Testimony

end Colloquy.Network
