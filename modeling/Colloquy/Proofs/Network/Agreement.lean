import Colloquy.Proofs.Network.Testimony

/-!
# Agreement of two agents

Under a specification in which the roles take turns, whatever is lost,
duplicated or reordered between two agents, the two dialogues of one
conversation never contradict each other.  What stands in one of them as the
opponent's stands in the other one as well; that the parties choose different
halves makes the one side an initiator's and the other a responder's.
-/

namespace Colloquy.Network

open Registry

/-- Two registries and the letters between them, if the parties have different
addresses and choose different halves. -/
structure Coherent (specification : Specification) (network : Network) : Prop
    extends Attested specification network where
  address_ne : ∀ party, network.address party.other ≠ network.address party
  ownHalf_ne : ∀ {party key dialogue other another},
    (network.registry party).Holds key dialogue →
    (network.registry party.other).Holds other another →
    dialogue.ownHalf ≠ another.ownHalf

section Coherence

variable {specification : Specification} {network before after : Network}
  {party : Party} {key other : Label} {dialogue another : Dialogue}

theorem ownHalf_of_role {registry : Registry} (hindexed : registry.Indexed)
    (hheld : registry.Holds key dialogue)
    (hrole : dialogue.role = .initiator) :
    dialogue.ownHalf = key.reference.initiator := by
  rw [Dialogue.ownHalf, hrole, hindexed.label_eq hheld]

/-- What faces an initiator's dialogue is a responder's. -/
theorem Coherent.role_of_faces (hcoherent : Coherent specification network)
    (hheld : (network.registry party).Holds key dialogue)
    (hrole : dialogue.role = .initiator)
    (hfaces : Faces network party key other another) :
    another.role = .responder := by
  cases hanother : another.role with
  | responder => rfl
  | initiator =>
    have hmine := ownHalf_of_role (hcoherent.indexed party) hheld hrole
    have htheirs :=
      ownHalf_of_role (hcoherent.indexed party.other) hfaces.held hanother
    refine absurd ?_ (hcoherent.ownHalf_ne hheld hfaces.held)
    rw [hmine, htheirs, hfaces.initiator_eq]

theorem Coherent.step (hcoherent : Coherent specification before)
    (hstep : Step before after) (hundisturbed : Undisturbed before after) :
    Coherent specification after := by
  obtain ⟨party, event, hturn⟩ := exists_turn hstep
  exact {
    hcoherent.toAttested.turn hturn hundisturbed.kept with
    address_ne := fun one => by
      rw [hturn.address_eq, hturn.address_eq]
      exact hcoherent.address_ne one
    ownHalf_ne := fun hheld hother =>
      hundisturbed.ownHalf_ne _ _ _ _ _ hheld hother }

theorem coherent_start (specification : Specification)
    {address : Party → Address} (limits : Party → Limits)
    (haddress : address .first ≠ address .second) :
    Coherent specification (start specification address limits) where
  toAttested := attested_start specification address limits
  address_ne party := by
    cases party with
    | first => exact haddress.symm
    | second => exact haddress
  ownHalf_ne hheld := absurd hheld not_holds_empty

theorem coherent_of_reachable (hreachable : Reachable specification network) :
    Coherent specification network := by
  induction hreachable with
  | start limits haddress => exact coherent_start specification limits haddress
  | step _ hstep hundisturbed ih => exact ih.step hstep hundisturbed

/-- The histories of the two sides are records of one conversation. -/
theorem Coherent.areRecords (hcoherent : Coherent specification network)
    (hheld : (network.registry party).Holds key dialogue)
    (hrole : dialogue.role = .initiator)
    (hopponent : key.opponent = network.address party.other)
    (hfaces : Faces network party key other another) :
    History.AreRecords specification dialogue.history another.history :=
  hcoherent.toAttested.areRecords hheld hrole hopponent hfaces
    (hcoherent.role_of_faces hheld hrole hfaces)

end Coherence

/-- Whatever the schedule, for every conversation that one party has opened with
the other one: the other party holds at most one dialogue, as its responder;
once the initiator's label is complete, it holds it under the mirrored label;
one history is a prefix of the other; and when messages have ended both
dialogues, the histories and the recorded outcomes are equal. -/
theorem conversations_agree {specification : Specification}
    (hturns : specification.TakesTurns) {network : Network}
    (hreachable : Reachable specification network) {party : Party}
    {key : Label} {dialogue : Dialogue}
    (hheld : (network.registry party).Holds key dialogue)
    (hrole : dialogue.role = .initiator)
    (hopponent : key.opponent = network.address party.other) :
    (∀ {other another later further}, Faces network party key other another →
      Faces network party key later further →
        other = later ∧ another = further) ∧
    (key.isComplete = true →
      ∃ another, Faces network party key key.mirror another) ∧
    ∀ {other another}, Faces network party key other another →
      another.role = .responder ∧
      (dialogue.history <+: another.history
        ∨ another.history <+: dialogue.history) ∧
      (dialogue.IsEndedByMessage specification →
        another.IsEndedByMessage specification →
          dialogue.history = another.history
            ∧ dialogue.outcome? = another.outcome?) := by
  have hcoherent := coherent_of_reachable hreachable
  refine ⟨hcoherent.eq_of_faces, fun hcomplete => ?_, fun hfaces => ?_⟩
  · obtain ⟨another, hanother⟩ :=
      hcoherent.mirrored hheld hopponent hrole hcomplete
    exact ⟨another, hanother, (hcoherent.indexed party).self_eq hheld, rfl⟩
  · have hrecords := hcoherent.areRecords hheld hrole hopponent hfaces
    refine ⟨hcoherent.role_of_faces hheld hrole hfaces,
      hrecords.comparable hturns, fun hmine htheirs => ?_⟩
    have hhistory := hrecords.eq_of_isConcluded hturns hmine.2 htheirs.2
    have hfirst := (hcoherent.sound party).consistent hheld
    have hsecond := (hcoherent.sound party.other).consistent hfaces.held
    rw [hcoherent.specification_eq] at hfirst hsecond
    refine ⟨hhistory, ?_⟩
    rw [Dialogue.outcome?, hfirst.state_eq hsecond hhistory hmine.2,
      Dialogue.outcome?]

/-! ## A question and its answer -/

theorem undisturbed_perform {network : Network} {party : Party}
    {operation : Operation}
    (hopen : ∀ entry ∈ (network.registry party).dialogues.entries,
      entry.2.isEnded = false)
    (hhalves : ∀ mine ∈
        ((network.perform party operation).registry .first).dialogues.entries,
      ∀ theirs ∈
        ((network.perform party operation).registry .second).dialogues.entries,
      mine.2.ownHalf ≠ theirs.2.ownHalf) :
    Undisturbed network (network.perform party operation) where
  kept := keeps_perform hopen
  ownHalf_ne one key dialogue another other hheld hother := by
    have hmine := OrderedMap.get?_eq_some_iff.mp hheld
    have htheirs := OrderedMap.get?_eq_some_iff.mp hother
    cases one with
    | first => exact hhalves _ hmine _ htheirs
    | second => exact (hhalves _ htheirs _ hmine).symm

/-- A reader asks, and a librarian answers. -/
def inquiry : Specification where
  id := ⟨"library", "inquiry", "1.0.0"⟩
  description := none
  speechActs := .ofList [("ask", ∅), ("answer", ∅)]
  reply := .ofList [("ask", ["answer"]), ("answer", [])]
  initiator := "reader"
  responder := "librarian"
  endStates := [⟨"answered"⟩]
  initiation := ["ask"]
  speakers := .ofList [(.initiator, ["ask"]), (.responder, ["answer"])]
  outcomes := .ofList [("answer", ⟨"answered"⟩)]

theorem takesTurns_inquiry : inquiry.TakesTurns := by
  rintro performative ⟨⟨next, hreply, hspeak⟩, -⟩
  obtain ⟨replies, hreplies, hmem⟩ := Specification.isReply_iff.mp hreply
  have hallowed : next ∈ ["ask"] := Specification.maySend_iff.mp hspeak _ rfl
  have hentry : (performative, replies) ∈
      [("ask", ["answer"]), ("answer", [])] :=
    OrderedMap.get?_eq_some_iff.mp hreplies
  simp only [List.mem_cons, Prod.mk.injEq, List.not_mem_nil, or_false]
    at hallowed hentry
  rcases hentry with ⟨-, rfl⟩ | ⟨-, rfl⟩
  · simp [hallowed] at hmem
  · simp at hmem

def ask : Message := ⟨inquiry.id, ⟨⟨"r", ""⟩, 1, 0⟩, "ask", []⟩

def answer : Message := ⟨inquiry.id, ⟨⟨"r", "l"⟩, 2, 1⟩, "answer", []⟩

def readerAddress : Party → Address
  | .first => ⟨"reader"⟩
  | .second => ⟨"librarian"⟩

def supplyOf : Party → HalfSupply
  | .first => .preferring "r" (by decide)
  | .second => .preferring "l" (by decide)

def asked : Network :=
  (start inquiry readerAddress fun _ => {}).perform .first
    (.openWith (supplyOf .first) "ask" [] ⟨"librarian"⟩)

def heardOnce : Network :=
  asked.perform .second (.receiveMessage (supplyOf .second) ask ⟨"reader"⟩)

/-- The question arrives once more. -/
def heardTwice : Network :=
  heardOnce.perform .second (.receiveMessage (supplyOf .second) ask ⟨"reader"⟩)

def answered : Network :=
  heardTwice.perform .second
    (.reply ⟨⟨"r", "l"⟩, ⟨"librarian"⟩, ⟨"reader"⟩⟩ "answer" [])

def settled : Network :=
  answered.perform .first
    (.receiveMessage (supplyOf .first) answer ⟨"librarian"⟩)

theorem reachable_settled : Reachable inquiry settled := by
  have hasked : asked.letters = [⟨⟨"reader"⟩, ⟨"librarian"⟩, ask⟩] := rfl
  have hposted : answered.letters
      = asked.letters ++ [⟨⟨"librarian"⟩, ⟨"reader"⟩, answer⟩] := rfl
  have hask : (⟨⟨"reader"⟩, ⟨"librarian"⟩, ask⟩ : Letter) ∈ asked.letters := by
    rw [hasked]
    exact List.mem_cons_self
  have hagain : (⟨⟨"reader"⟩, ⟨"librarian"⟩, ask⟩ : Letter)
      ∈ heardOnce.letters := List.mem_append_left _ hask
  have hanswer : (⟨⟨"librarian"⟩, ⟨"reader"⟩, answer⟩ : Letter)
      ∈ answered.letters := by
    rw [hposted]
    exact List.mem_append_right _ List.mem_cons_self
  have hstart : Reachable inquiry (start inquiry readerAddress fun _ => {}) :=
    .start _ (by decide)
  have hfirst : Reachable inquiry asked :=
    .step hstart (.act .first trivial)
      (undisturbed_perform (by decide +kernel) (by decide +kernel))
  have hsecond : Reachable inquiry heardOnce :=
    .step hfirst (.deliver .second _ hask rfl)
      (undisturbed_perform (by decide +kernel) (by decide +kernel))
  have hthird : Reachable inquiry heardTwice :=
    .step hsecond (.deliver .second _ hagain rfl)
      (undisturbed_perform (by decide +kernel) (by decide +kernel))
  have hfourth : Reachable inquiry answered :=
    .step hthird (.act .second trivial)
      (undisturbed_perform (by decide +kernel) (by decide +kernel))
  exact .step hfourth (.deliver .first _ hanswer rfl)
    (undisturbed_perform (by decide +kernel) (by decide +kernel))

/-- Both sides have ended with the answer, and recorded the same. -/
theorem conversations_agree_inquiry :
    inquiry.TakesTurns ∧ Reachable inquiry settled ∧
      ∃ dialogue another,
        (settled.registry .first).Holds
          ⟨⟨"r", "l"⟩, ⟨"reader"⟩, ⟨"librarian"⟩⟩ dialogue
        ∧ (settled.registry .second).Holds
          ⟨⟨"r", "l"⟩, ⟨"librarian"⟩, ⟨"reader"⟩⟩ another
        ∧ dialogue.role = .initiator ∧ dialogue.history.length = 2
        ∧ dialogue.IsEndedByMessage inquiry ∧ another.IsEndedByMessage inquiry
        ∧ dialogue.history = another.history
        ∧ dialogue.outcome? = another.outcome? := by
  let mine : Dialogue :=
    { label := ⟨⟨"r", "l"⟩, ⟨"reader"⟩, ⟨"librarian"⟩⟩, role := .initiator
      messages := [ask, answer], senders := [.initiator, .responder]
      state := .ended (some ⟨"answered"⟩), aligned := rfl }
  let theirs : Dialogue :=
    { label := ⟨⟨"r", "l"⟩, ⟨"librarian"⟩, ⟨"reader"⟩⟩, role := .responder
      messages := [ask, answer], senders := [.initiator, .responder]
      state := .ended (some ⟨"answered"⟩), aligned := rfl }
  have hmine : (settled.registry .first).Holds mine.label mine := rfl
  have htheirs : (settled.registry .second).Holds theirs.label theirs := rfl
  have hconcluded : History.IsConcluded inquiry mine.history :=
    ⟨(.responder, answer), rfl, rfl⟩
  obtain ⟨-, -, hagree⟩ := conversations_agree takesTurns_inquiry
    reachable_settled hmine rfl rfl
  obtain ⟨-, -, hsame⟩ := hagree ⟨htheirs, rfl, rfl⟩
  exact ⟨takesTurns_inquiry, reachable_settled, mine, theirs, hmine, htheirs,
    rfl, rfl, ⟨rfl, hconcluded⟩, ⟨rfl, hconcluded⟩,
    hsame ⟨rfl, hconcluded⟩ ⟨rfl, hconcluded⟩⟩

end Colloquy.Network
