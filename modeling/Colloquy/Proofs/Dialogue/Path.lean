import Colloquy.Dialogue

/-!
# Legal paths of the reply graph

What a conversation may look like, said without a dialogue: ids and targets
count up, an opener comes first, every other performative is among the replies
of the one before it, and everybody keeps to what their role may send.  A
dialogue that was never ended early has accepted exactly such a path; nothing
follows a last performative, so the ended state needs no mention in it.
-/

namespace Colloquy

/-- Whatever was said last, at most one of the two roles may go on. -/
def Specification.TakesTurns (specification : Specification) : Prop :=
  ∀ performative,
    ¬ ((∃ next, specification.isReply performative next = true
          ∧ specification.maySend .initiator next = true)
      ∧ ∃ next, specification.isReply performative next = true
          ∧ specification.maySend .responder next = true)

/-- Messages with their senders, the oldest one first. -/
abbrev History := List (Role × Message)

namespace History

/-- A performative may come next: it opens a conversation, or it is among the
replies of the last one. -/
def CanFollow (specification : Specification) (history : History)
    (performative : String) : Prop :=
  match history.getLast? with
  | none => performative ∈ specification.initiation
  | some last =>
    ∃ replies, specification.replies? last.2.performative = some replies
      ∧ performative ∈ replies

/-- A role may send a performative unless it is restricted to others. -/
def CanSpeak (specification : Specification) (role : Role)
    (performative : String) : Prop :=
  ∀ allowed, specification.speakers.get? role = some allowed →
    performative ∈ allowed

/-- A message has the place after the messages of a history. -/
def IsNext (history : History) (message : Message) : Prop :=
  message.routing.messageId.toNat = history.length + 1
    ∧ message.routing.target.toNat = history.length

/-- A legal path of the reply graph. -/
structure IsPath (specification : Specification) (history : History) :
    Prop where
  /-- The message at index `k` has the id `k + 1` and the target `k`. -/
  position : ∀ {k entry}, history[k]? = some entry →
    entry.2.routing.messageId.toNat = k + 1
      ∧ entry.2.routing.target.toNat = k
  opens : ∀ {entry}, history[0]? = some entry →
    entry.2.performative ∈ specification.initiation
  replies : ∀ {k previous next}, history[k]? = some previous →
    history[k + 1]? = some next →
      ∃ replies, specification.replies? previous.2.performative = some replies
        ∧ next.2.performative ∈ replies
  speaks : ∀ {entry}, entry ∈ history →
    CanSpeak specification entry.1 entry.2.performative

variable {specification : Specification} {history : History}

theorem isPath_nil : IsPath specification [] where
  position hentry := by simp at hentry
  opens hentry := by simp at hentry
  replies hprevious := by simp at hprevious
  speaks hmem := by simp at hmem

theorem IsPath.of_append {rest : History}
    (hpath : IsPath specification (history ++ rest)) :
    IsPath specification history := by
  have hleft : ∀ {k : Nat} {entry}, history[k]? = some entry →
      (history ++ rest)[k]? = some entry := by
    intro k entry hentry
    rw [List.getElem?_append_left (List.getElem?_eq_some_iff.mp hentry).1]
    exact hentry
  exact {
    position := fun hentry => hpath.position (hleft hentry)
    opens := fun hentry => hpath.opens (hleft hentry)
    replies := fun hprevious hnext =>
      hpath.replies (hleft hprevious) (hleft hnext)
    speaks := fun hmem => hpath.speaks (List.mem_append_left rest hmem) }

/-- An entry after one more message is an old one, or the new one. -/
theorem getElem?_concat_eq_some {last entry : Role × Message} {k : Nat}
    (hentry : (history ++ [last])[k]? = some entry) :
    history[k]? = some entry ∨ k = history.length ∧ entry = last := by
  rw [List.getElem?_append] at hentry
  split at hentry
  · exact Or.inl hentry
  · obtain ⟨hlt, hget⟩ := List.getElem?_eq_some_iff.mp hentry
    rw [List.length_singleton] at hlt
    refine Or.inr ⟨by omega, ?_⟩
    rw [← hget]
    simp

theorem IsPath.canFollow_of_concat {sender : Role} {message : Message}
    (hpath : IsPath specification (history ++ [(sender, message)])) :
    CanFollow specification history message.performative := by
  have hnew : (history ++ [(sender, message)])[history.length]? =
      some (sender, message) := List.getElem?_concat_length
  rw [CanFollow]
  split
  · rename_i hnone
    have hnil : history = [] := List.getLast?_eq_none_iff.mp hnone
    subst hnil
    exact hpath.opens hnew
  · rename_i last hsome
    obtain ⟨before, rfl⟩ := List.getLast?_eq_some_iff.mp hsome
    rw [List.length_append, List.length_singleton] at hnew
    refine hpath.replies (k := before.length) ?_ hnew
    rw [List.getElem?_append_left (by simp)]
    exact List.getElem?_concat_length

theorem IsPath.concat {sender : Role} {message : Message}
    (hpath : IsPath specification history) (hnext : IsNext history message)
    (hfollow : CanFollow specification history message.performative)
    (hspeak : CanSpeak specification sender message.performative) :
    IsPath specification (history ++ [(sender, message)]) where
  position hentry := by
    rcases getElem?_concat_eq_some hentry with hold | ⟨rfl, rfl⟩
    · exact hpath.position hold
    · exact hnext
  opens hentry := by
    rcases getElem?_concat_eq_some hentry with hold | ⟨hzero, rfl⟩
    · exact hpath.opens hold
    · have hnil : history = [] := List.length_eq_zero_iff.mp hzero.symm
      simpa [CanFollow, hnil] using hfollow
  replies := by
    intro k previous next hprevious hentry
    have hlt : k < history.length := by
      have hbound := (List.getElem?_eq_some_iff.mp hentry).1
      rw [List.length_append, List.length_singleton] at hbound
      omega
    rw [List.getElem?_append_left hlt] at hprevious
    rcases getElem?_concat_eq_some hentry with hold | ⟨hk, rfl⟩
    · exact hpath.replies hprevious hold
    · have hend : history.getLast? = some previous := by
        rw [List.getLast?_eq_getElem?, ← hk, Nat.add_sub_cancel]
        exact hprevious
      simpa [CanFollow, hend] using hfollow
  speaks hmem := by
    rcases List.mem_append.mp hmem with hold | hnew
    · exact hpath.speaks hold
    · rw [List.mem_singleton] at hnew
      rw [hnew]
      exact hspeak

/-- What a path demands of one more message. -/
theorem isPath_concat_iff {sender : Role} {message : Message} :
    IsPath specification (history ++ [(sender, message)]) ↔
      IsPath specification history ∧ IsNext history message
        ∧ CanFollow specification history message.performative
        ∧ CanSpeak specification sender message.performative := by
  constructor
  · intro hpath
    exact ⟨hpath.of_append, hpath.position List.getElem?_concat_length,
      hpath.canFollow_of_concat,
      hpath.speaks (List.mem_append_right history List.mem_cons_self)⟩
  · rintro ⟨hpath, hnext, hfollow, hspeak⟩
    exact hpath.concat hnext hfollow hspeak

/-! ## Conclusions -/

/-- The last performative has no replies. -/
def IsConcluded (specification : Specification) (history : History) : Prop :=
  ∃ last, history.getLast? = some last
    ∧ specification.replies? last.2.performative = some []

theorem not_canFollow_of_isConcluded
    (hconcluded : IsConcluded specification history) (performative : String) :
    ¬ CanFollow specification history performative := by
  obtain ⟨last, hlast, hterminal⟩ := hconcluded
  simp [CanFollow, hlast, hterminal]

/-! ## Two records of one conversation -/

/-- The id of a message says where it stands. -/
theorem IsPath.getElem?_of_mem {entry : Role × Message} {k : Nat}
    (hpath : IsPath specification history) (hmem : entry ∈ history)
    (hid : entry.2.routing.messageId.toNat = k + 1) :
    history[k]? = some entry := by
  obtain ⟨j, hj⟩ := List.mem_iff_getElem?.mp hmem
  have hposition := (hpath.position hj).1
  have heq : j = k := by omega
  exact heq ▸ hj

/-- What stands in a path has no place after it. -/
theorem IsPath.not_isNext_of_mem {entry : Role × Message}
    (hpath : IsPath specification history) (hmem : entry ∈ history) :
    ¬ IsNext history entry.2 := by
  intro hnext
  obtain ⟨k, hentry⟩ := List.mem_iff_getElem?.mp hmem
  have hid := (hpath.position hentry).1
  have hlt := (List.getElem?_eq_some_iff.mp hentry).1
  have hnextId := hnext.1
  omega

/-- Two paths that the initiator opened, where what the left one has of the
responder is also in the right one, and what the right one has of the initiator
is also in the left one. -/
structure AreRecords (specification : Specification) (left right : History) :
    Prop where
  leftPath : IsPath specification left
  rightPath : IsPath specification right
  opens : ∀ {sender message rest}, right = (sender, message) :: rest →
    sender = .initiator
  ofResponder : ∀ {message}, (.responder, message) ∈ left →
    (.responder, message) ∈ right
  ofInitiator : ∀ {message}, (.initiator, message) ∈ right →
    (.initiator, message) ∈ left

section Records

variable {left right : History}

theorem AreRecords.eq_of_responder
    (hrecords : AreRecords specification left right) {k : Nat}
    {message : Message} {theirs : Role × Message}
    (hmine : left[k]? = some (.responder, message))
    (htheirs : right[k]? = some theirs) : theirs = (.responder, message) := by
  have hmem := hrecords.ofResponder (List.mem_of_getElem? hmine)
  have hsame := hrecords.rightPath.getElem?_of_mem hmem
    (hrecords.leftPath.position hmine).1
  exact Option.some.inj (htheirs.symm.trans hsame)

theorem AreRecords.eq_of_initiator
    (hrecords : AreRecords specification left right) {k : Nat}
    {message : Message} {mine : Role × Message}
    (hmine : left[k]? = some mine)
    (htheirs : right[k]? = some (.initiator, message)) :
    mine = (.initiator, message) := by
  have hmem := hrecords.ofInitiator (List.mem_of_getElem? htheirs)
  have hsame := hrecords.leftPath.getElem?_of_mem hmem
    (hrecords.rightPath.position htheirs).1
  exact Option.some.inj (hmine.symm.trans hsame)

/-- Past the end of the left record the responder goes on alone in the right one:
a message of the initiator would be in the left one too. -/
theorem AreRecords.responder_of_mem
    (hrecords : AreRecords specification left right) {common rest : History}
    (hright : right = common ++ rest) (hlength : left.length ≤ common.length)
    {entry : Role × Message} (hmem : entry ∈ rest) : entry.1 = .responder := by
  obtain ⟨k, hk⟩ := List.mem_iff_getElem?.mp hmem
  have htheirs : right[common.length + k]? = some entry := by
    rw [hright, List.getElem?_append_right (Nat.le_add_right _ _),
      Nat.add_sub_cancel_left, hk]
  obtain ⟨sender, message⟩ := entry
  cases sender with
  | responder => rfl
  | initiator =>
    have hold := hrecords.ofInitiator (List.mem_of_getElem? htheirs)
    have hmine := hrecords.leftPath.getElem?_of_mem hold
      (hrecords.rightPath.position htheirs).1
    rw [List.getElem?_eq_none (Nat.le_add_right_of_le hlength)] at hmine
    cases hmine

theorem AreRecords.initiator_of_mem
    (hrecords : AreRecords specification left right) {common rest : History}
    (hleft : left = common ++ rest) (hlength : right.length ≤ common.length)
    {entry : Role × Message} (hmem : entry ∈ rest) : entry.1 = .initiator := by
  obtain ⟨k, hk⟩ := List.mem_iff_getElem?.mp hmem
  have hmine : left[common.length + k]? = some entry := by
    rw [hleft, List.getElem?_append_right (Nat.le_add_right _ _),
      Nat.add_sub_cancel_left, hk]
  obtain ⟨sender, message⟩ := entry
  cases sender with
  | initiator => rfl
  | responder =>
    have hold := hrecords.ofResponder (List.mem_of_getElem? hmine)
    have htheirs := hrecords.rightPath.getElem?_of_mem hold
      (hrecords.leftPath.position hmine).1
    rw [List.getElem?_eq_none (Nat.le_add_right_of_le hlength)] at htheirs
    cases htheirs

/-- Of two lists one goes on where the other one stops, or there is a place where
they part. -/
theorem prefix_or_parts {α : Type} (left right : List α) :
    left <+: right ∨ right <+: left ∨ ∃ common mine theirs more rest,
      mine ≠ theirs ∧ left = common ++ mine :: more
        ∧ right = common ++ theirs :: rest := by
  induction left generalizing right with
  | nil => exact Or.inl List.nil_prefix
  | cons mine more ih =>
    cases right with
    | nil => exact Or.inr (Or.inl List.nil_prefix)
    | cons theirs rest =>
      by_cases hsame : mine = theirs
      · subst hsame
        rcases ih rest with hle | hge |
          ⟨common, first, second, further, remaining, hne, hleft, hright⟩
        · exact Or.inl (List.cons_prefix_cons.mpr ⟨rfl, hle⟩)
        · exact Or.inr (Or.inl (List.cons_prefix_cons.mpr ⟨rfl, hge⟩))
        · refine Or.inr (Or.inr ⟨mine :: common, first, second, further,
            remaining, hne, ?_, ?_⟩)
          · rw [hleft, List.cons_append]
          · rw [hright, List.cons_append]
      · exact Or.inr (Or.inr ⟨[], mine, theirs, more, rest, hsame, rfl, rfl⟩)

/-- Where two records part, both roles have gone on from what they have in
common: the initiator in the left one, the responder in the right one. -/
structure Parts (left right common : History) (mine theirs : Message) :
    Prop where
  left_eq : ∃ more, left = common ++ (.initiator, mine) :: more
  right_eq : ∃ rest, right = common ++ (.responder, theirs) :: rest
  nonempty : common ≠ []

/-- One of two records goes on where the other one stops, or they part: a message
of the responder is in the right record too, and one of the initiator in the
left one. -/
theorem AreRecords.comparable_or_parts
    (hrecords : AreRecords specification left right) :
    left <+: right ∨ right <+: left
      ∨ ∃ common mine theirs, Parts left right common mine theirs := by
  rcases prefix_or_parts left right with hle | hge |
    ⟨common, ⟨speaker, mine⟩, ⟨author, theirs⟩, more, rest, hne, hleft, hright⟩
  · exact Or.inl hle
  · exact Or.inr (Or.inl hge)
  · have hmine : left[common.length]? = some (speaker, mine) := by
      rw [hleft]
      simp
    have htheirs : right[common.length]? = some (author, theirs) := by
      rw [hright]
      simp
    cases speaker with
    | responder =>
      exact absurd (hrecords.eq_of_responder hmine htheirs).symm hne
    | initiator =>
      cases author with
      | initiator => exact absurd (hrecords.eq_of_initiator hmine htheirs) hne
      | responder =>
        refine Or.inr (Or.inr ⟨common, mine, theirs, ⟨more, hleft⟩,
          ⟨rest, hright⟩, ?_⟩)
        rintro rfl
        cases hrecords.opens hright

/-- Both roles may go on after the last message that the records have in
common. -/
theorem Parts.contested {common : History} {mine theirs : Message}
    (hparts : Parts left right common mine theirs)
    (hleft : IsPath specification left) (hright : IsPath specification right) :
    ∃ last replies, common.getLast? = some last
      ∧ specification.replies? last.2.performative = some replies
      ∧ (mine.performative ∈ replies
        ∧ CanSpeak specification .initiator mine.performative)
      ∧ theirs.performative ∈ replies
        ∧ CanSpeak specification .responder theirs.performative := by
  obtain ⟨more, rfl⟩ := hparts.left_eq
  obtain ⟨rest, rfl⟩ := hparts.right_eq
  rw [List.append_cons] at hleft hright
  obtain ⟨-, -, hmine, hinitiator⟩ := isPath_concat_iff.mp hleft.of_append
  obtain ⟨-, -, htheirs, hresponder⟩ := isPath_concat_iff.mp hright.of_append
  cases hlast : common.getLast? with
  | none => exact absurd (List.getLast?_eq_none_iff.mp hlast) hparts.nonempty
  | some last =>
    simp only [CanFollow, hlast] at hmine htheirs
    obtain ⟨replies, hreplies, hmem⟩ := hmine
    obtain ⟨others, hothers, hmemToo⟩ := htheirs
    rw [hreplies] at hothers
    cases hothers
    exact ⟨last, replies, rfl, hreplies, ⟨hmem, hinitiator⟩, hmemToo,
      hresponder⟩

theorem Parts.not_takesTurns {common : History} {mine theirs : Message}
    (hparts : Parts left right common mine theirs)
    (hleft : IsPath specification left) (hright : IsPath specification right) :
    ¬ specification.TakesTurns := by
  intro hturns
  obtain ⟨last, replies, -, hreplies, ⟨hmine, hinitiator⟩, htheirs, hresponder⟩ :=
    hparts.contested hleft hright
  apply hturns last.2.performative
  constructor
  · exact ⟨mine.performative,
      Specification.isReply_iff.mpr ⟨replies, hreplies, hmine⟩,
      Specification.maySend_iff.mpr hinitiator⟩
  · exact ⟨theirs.performative,
      Specification.isReply_iff.mpr ⟨replies, hreplies, htheirs⟩,
      Specification.maySend_iff.mpr hresponder⟩

/-- One of two records goes on where the other one stops. -/
theorem AreRecords.comparable (hrecords : AreRecords specification left right)
    (hturns : specification.TakesTurns) : left <+: right ∨ right <+: left := by
  rcases hrecords.comparable_or_parts with hle | hge |
    ⟨common, mine, theirs, hparts⟩
  · exact Or.inl hle
  · exact Or.inr hge
  · exact absurd hturns
      (hparts.not_takesTurns hrecords.leftPath hrecords.rightPath)

/-- A concluded path is not continued. -/
theorem IsPath.eq_of_prefix (hpath : IsPath specification right)
    (hconcluded : IsConcluded specification left) (hstart : left <+: right) :
    left = right := by
  obtain ⟨suffix, rfl⟩ := hstart
  cases suffix with
  | nil => rw [List.append_nil]
  | cons entry rest =>
    rw [List.append_cons] at hpath
    have hfollow := hpath.of_append.canFollow_of_concat
    exact absurd hfollow
      (not_canFollow_of_isConcluded hconcluded entry.2.performative)

theorem IsPath.eq_nil_of_terminal {common rest : History} {entry : Role × Message}
    (hpath : IsPath specification (common ++ entry :: rest))
    (hterminal : specification.replies? entry.2.performative = some []) :
    rest = [] := by
  have hconcluded : IsConcluded specification (common ++ [entry]) :=
    ⟨entry, List.getLast?_concat, hterminal⟩
  have hstart : common ++ [entry] <+: common ++ entry :: rest :=
    ⟨rest, (List.append_cons common entry rest).symm⟩
  have hsame := hpath.eq_of_prefix hconcluded hstart
  simpa using hsame.symm

/-- Two concluded records are the same. -/
theorem AreRecords.eq_of_isConcluded
    (hrecords : AreRecords specification left right)
    (hturns : specification.TakesTurns)
    (hleft : IsConcluded specification left)
    (hright : IsConcluded specification right) : left = right := by
  rcases hrecords.comparable hturns with hstart | hstart
  · exact hrecords.rightPath.eq_of_prefix hleft hstart
  · exact (hrecords.leftPath.eq_of_prefix hright hstart).symm

end Records

end History

end Colloquy
