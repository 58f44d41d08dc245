import Colloquy.Negotiation.Specification
import Colloquy.Proofs.Dialogue.Path

/-!
# Two records of one negotiation

How a negotiation ends for the buyer and for the seller when their moves may
cross.  Both may decline where the other one may go on as well, so that the
two records can differ.  Main statement: if both are concluded they end with
the same performative, except that a seller may confirm an acceptance that the
buyer has withdrawn in the meantime.
-/

namespace Colloquy.Negotiation

open History

/-- The buyer withdraws an acceptance that the seller confirms. -/
def Crosses (buyer seller : History) : Prop :=
  ∃ before acceptance withdrawal confirmation,
    buyer = before ++ [(.initiator, acceptance), (.initiator, withdrawal)]
      ∧ seller = before ++ [(.initiator, acceptance), (.responder, confirmation)]
      ∧ acceptance.performative = "accept"
      ∧ withdrawal.performative = "decline"
      ∧ confirmation.performative = "match_accept"

section Records

variable {history common rest left right : History} {first mine theirs : Message}
  {performative : String}

/-! ## The table of replies -/

theorem replies?_cases {replies : List String}
    (hreplies : specification.replies? performative = some replies) :
    performative = "cfp" ∧ replies = ["propose", "decline"]
      ∨ performative = "propose" ∧ replies = ["accept", "decline"]
      ∨ performative = "accept" ∧ replies = ["decline", "match_accept"]
      ∨ performative = "decline" ∧ replies = []
      ∨ performative = "match_accept" ∧ replies = [] := by
  have hentry : (performative, replies) ∈
      [("cfp", ["propose", "decline"]), ("propose", ["accept", "decline"]),
        ("accept", ["decline", "match_accept"]), ("decline", []),
        ("match_accept", [])] := OrderedMap.get?_eq_some_iff.mp hreplies
  simpa using hentry

/-- Every last performative has an outcome. -/
theorem exists_outcome?
    (hterminal : specification.replies? performative = some []) :
    ∃ outcome, specification.outcome? performative = some outcome := by
  rcases replies?_cases hterminal with
    ⟨-, hnone⟩ | ⟨-, hnone⟩ | ⟨-, hnone⟩ | ⟨rfl, -⟩ | ⟨rfl, -⟩
  · cases hnone
  · cases hnone
  · cases hnone
  · exact ⟨⟨"failed"⟩, rfl⟩
  · exact ⟨⟨"successful"⟩, rfl⟩

theorem mem_of_canSpeak_initiator
    (hspeak : CanSpeak specification .initiator performative) :
    performative ∈ ["cfp", "accept", "decline"] :=
  hspeak _ rfl

theorem mem_of_canSpeak_responder
    (hspeak : CanSpeak specification .responder performative) :
    performative ∈ ["propose", "decline", "match_accept"] :=
  hspeak _ rfl

/-- The moves that may cross: the buyer declines what the seller answers, or the
seller declines what the buyer answers. -/
theorem contested_cases {last other : String} {replies : List String}
    (hreplies : specification.replies? last = some replies)
    (hbuyer : performative ∈ replies
      ∧ CanSpeak specification .initiator performative)
    (hseller : other ∈ replies ∧ CanSpeak specification .responder other) :
    performative = "decline" ∧ other = "decline"
      ∨ performative = "decline" ∧ other = "propose"
      ∨ performative = "accept" ∧ other = "decline"
      ∨ last = "accept" ∧ performative = "decline"
        ∧ other = "match_accept" := by
  obtain ⟨hmine, hspeak⟩ := hbuyer
  obtain ⟨htheirs, hspeakToo⟩ := hseller
  have hbuyer := mem_of_canSpeak_initiator hspeak
  have hseller := mem_of_canSpeak_responder hspeakToo
  rcases replies?_cases hreplies with
    ⟨rfl, rfl⟩ | ⟨rfl, rfl⟩ | ⟨rfl, rfl⟩ | ⟨rfl, rfl⟩ | ⟨rfl, rfl⟩ <;>
    simp only [List.mem_cons, List.not_mem_nil, or_false] at * <;>
    rcases hmine with rfl | rfl <;> rcases htheirs with rfl | rfl <;> simp_all

/-- Who goes on alone after an acceptance or a proposal of their own declines. -/
theorem eq_decline_of_alone {speaker : Role} {replies : List String}
    {last : String}
    (hlast : speaker = .initiator ∧ last = "accept"
      ∨ speaker = .responder ∧ last = "propose")
    (hreplies : specification.replies? last = some replies)
    (hmem : performative ∈ replies)
    (hspeak : CanSpeak specification speaker performative) :
    performative = "decline" := by
  rcases hlast with ⟨rfl, rfl⟩ | ⟨rfl, rfl⟩
  · have hallowed := mem_of_canSpeak_initiator hspeak
    cases hreplies
    simp only [List.mem_cons, List.not_mem_nil, or_false] at hmem hallowed
    rcases hmem with rfl | rfl
    · rfl
    · simp at hallowed
  · have hallowed := mem_of_canSpeak_responder hspeak
    cases hreplies
    simp only [List.mem_cons, List.not_mem_nil, or_false] at hmem hallowed
    rcases hmem with rfl | rfl
    · simp at hallowed
    · rfl

/-! ## Where the records part -/

theorem replies?_of_decline (hdecline : performative = "decline") :
    specification.replies? performative = some [] := by
  rw [hdecline]
  rfl

theorem replies?_of_confirm (hconfirm : performative = "match_accept") :
    specification.replies? performative = some [] := by
  rw [hconfirm]
  rfl

/-- A record in which one role went on alone after an acceptance or a proposal of
its own ends with its refusal. -/
theorem getLast?_of_alone {speaker : Role}
    (hpath : IsPath specification history)
    (hconcluded : IsConcluded specification history)
    (hhistory : history = common ++ (speaker, first) :: rest)
    (halone : ∀ entry ∈ rest, entry.1 = speaker)
    (hfirst : speaker = .initiator ∧ first.performative = "accept"
      ∨ speaker = .responder ∧ first.performative = "propose") :
    ∃ last, history.getLast? = some last ∧ last.2.performative = "decline" := by
  subst hhistory
  cases rest with
  | nil =>
    obtain ⟨last, hlast, hterminal⟩ := hconcluded
    rw [List.getLast?_concat, Option.some.injEq] at hlast
    subst hlast
    rcases hfirst with ⟨-, haccept⟩ | ⟨-, hpropose⟩
    · rw [haccept] at hterminal
      cases hterminal
    · rw [hpropose] at hterminal
      cases hterminal
  | cons entry more =>
    obtain ⟨author, next⟩ := entry
    have hauthor : author = speaker := halone _ List.mem_cons_self
    subst hauthor
    rw [List.append_cons] at hpath ⊢
    have hnext := hpath
    rw [List.append_cons] at hnext
    obtain ⟨-, -, hfollow, hspeak⟩ := isPath_concat_iff.mp hnext.of_append
    simp only [CanFollow, List.getLast?_concat] at hfollow
    obtain ⟨replies, hreplies, hmem⟩ := hfollow
    have hdecline := eq_decline_of_alone hfirst hreplies hmem hspeak
    obtain rfl := hpath.eq_nil_of_terminal (replies?_of_decline hdecline)
    exact ⟨(author, next), List.getLast?_concat, hdecline⟩

/-- An acceptance is the buyer's. -/
theorem initiator_of_accept {entry : Role × Message}
    (hpath : IsPath specification history) (hmem : entry ∈ history)
    (haccept : entry.2.performative = "accept") : entry.1 = .initiator := by
  have hspeak := hpath.speaks hmem
  cases hrole : entry.1 with
  | initiator => rfl
  | responder =>
    rw [hrole, haccept] at hspeak
    have hallowed := mem_of_canSpeak_responder hspeak
    simp at hallowed

/-- Two concluded records of a negotiation end with the same performative, unless
the buyer withdraws what the seller confirms. -/
theorem same_or_crosses (hrecords : AreRecords specification left right)
    (hleft : IsConcluded specification left)
    (hright : IsConcluded specification right) :
    (∃ mine theirs, left.getLast? = some mine ∧ right.getLast? = some theirs
        ∧ mine.2.performative = theirs.2.performative)
      ∨ Crosses left right := by
  have hsame : left = right → ∃ mine theirs, left.getLast? = some mine
      ∧ right.getLast? = some theirs
      ∧ mine.2.performative = theirs.2.performative := by
    rintro rfl
    obtain ⟨last, hlast, -⟩ := hleft
    exact ⟨last, last, hlast, hlast, rfl⟩
  rcases hrecords.comparable_or_parts with hle | hge |
    ⟨common, mine, theirs, hparts⟩
  · exact Or.inl (hsame (hrecords.rightPath.eq_of_prefix hleft hle))
  · exact Or.inl (hsame (hrecords.leftPath.eq_of_prefix hright hge).symm)
  · obtain ⟨last, replies, hlast, hreplies, hbuyer, hseller⟩ :=
      hparts.contested hrecords.leftPath hrecords.rightPath
    obtain ⟨more, hmine⟩ := hparts.left_eq
    obtain ⟨rest, htheirs⟩ := hparts.right_eq
    have hpath := hrecords.leftPath
    have hother := hrecords.rightPath
    rw [hmine] at hpath
    rw [htheirs] at hother
    rcases contested_cases hreplies hbuyer hseller with
      ⟨hdecline, hrefusal⟩ | ⟨hdecline, hpropose⟩ | ⟨haccept, hrefusal⟩ |
      ⟨haccept, hdecline, hconfirm⟩
    · -- Both decline.
      obtain rfl := hpath.eq_nil_of_terminal (replies?_of_decline hdecline)
      obtain rfl := hother.eq_nil_of_terminal (replies?_of_decline hrefusal)
      exact Or.inl ⟨_, _, by rw [hmine, List.getLast?_concat],
        by rw [htheirs, List.getLast?_concat], hdecline.trans hrefusal.symm⟩
    · -- The buyer declines what the seller then proposes and takes back.
      obtain rfl := hpath.eq_nil_of_terminal (replies?_of_decline hdecline)
      obtain ⟨final, hfinal, hrefusal⟩ := getLast?_of_alone hrecords.rightPath
        hright htheirs
        (fun _ hmem => hrecords.responder_of_mem
          (htheirs.trans (List.append_cons ..)) (by simp [hmine]) hmem)
        (Or.inr ⟨rfl, hpropose⟩)
      exact Or.inl ⟨_, final, by rw [hmine, List.getLast?_concat], hfinal,
        hdecline.trans hrefusal.symm⟩
    · -- The seller takes back what the buyer then accepts and declines.
      obtain rfl := hother.eq_nil_of_terminal (replies?_of_decline hrefusal)
      obtain ⟨final, hfinal, hdecline⟩ := getLast?_of_alone hrecords.leftPath
        hleft hmine
        (fun _ hmem => hrecords.initiator_of_mem
          (hmine.trans (List.append_cons ..)) (by simp [htheirs]) hmem)
        (Or.inl ⟨rfl, haccept⟩)
      exact Or.inl ⟨final, _, hfinal, by rw [htheirs, List.getLast?_concat],
        hdecline.trans hrefusal.symm⟩
    · obtain rfl := hpath.eq_nil_of_terminal (replies?_of_decline hdecline)
      obtain rfl := hother.eq_nil_of_terminal (replies?_of_confirm hconfirm)
      obtain ⟨before, rfl⟩ := List.getLast?_eq_some_iff.mp hlast
      obtain ⟨author, acceptance⟩ := last
      have hauthor : author = .initiator := initiator_of_accept hpath
        (by simp) haccept
      subst hauthor
      exact Or.inr ⟨before, acceptance, mine, theirs, by simp [hmine],
        by simp [htheirs], haccept, hdecline, hconfirm⟩

end Records

end Colloquy.Negotiation
