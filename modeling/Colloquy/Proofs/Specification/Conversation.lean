import Colloquy.Proofs.Dialogue.Run
import Colloquy.Specification.Load

/-!
# Complete conversations

A specification can be used if there is a conversation under it: one that the
initiator may open, in which everybody keeps to the reply table and to what
their role may send, and which comes to an end.  Loading checks openers, replies
and speakers apart from each other, so a loaded specification need not have any.
Main statement: whether there is a conversation can be computed, and the
dialogues that a message ends are exactly the conversations.
-/

namespace Colloquy.Specification

/-! ## Conversations -/

/-- A conversation from some move on, to its end. -/
structure IsEnding (specification : Specification)
    (moves : List (Role × String)) : Prop where
  replies : ∀ {k previous next}, moves[k]? = some previous →
    moves[k + 1]? = some next →
      specification.isReply previous.2 next.2 = true
  speaks : ∀ {move}, move ∈ moves →
    specification.maySend move.1 move.2 = true
  ends : ∃ last, moves.getLast? = some last
    ∧ specification.isTerminal last.2 = true

/-- A conversation that the initiator opens, as the performatives that were said
and who said them. -/
structure IsConversation (specification : Specification)
    (moves : List (Role × String)) : Prop
    extends IsEnding specification moves where
  opens : ∃ performative, moves.head? = some (.initiator, performative)
    ∧ specification.isInitiating performative = true

/-- After a performative the end can be reached. -/
inductive Concludes (specification : Specification) : String → Prop where
  | terminal {performative : String}
      (hterminal : specification.isTerminal performative = true) :
      Concludes specification performative
  | reply {performative next : String} {role : Role}
      (hreply : specification.isReply performative next = true)
      (hspeaks : specification.maySend role next = true)
      (hnext : Concludes specification next) :
      Concludes specification performative

section Conversations

variable {specification : Specification} {move next : Role × String}
  {rest : List (Role × String)} {performative : String}

theorem isEnding_singleton (hspeaks : specification.maySend move.1 move.2 = true)
    (hterminal : specification.isTerminal move.2 = true) :
    specification.IsEnding [move] where
  replies _ hlater := by simp at hlater
  speaks hmem := List.mem_singleton.mp hmem ▸ hspeaks
  ends := ⟨move, rfl, hterminal⟩

theorem IsEnding.cons (hrest : specification.IsEnding (next :: rest))
    (hspeaks : specification.maySend move.1 move.2 = true)
    (hreply : specification.isReply move.2 next.2 = true) :
    specification.IsEnding (move :: next :: rest) where
  replies := by
    intro k previous later hprevious hlater
    cases k with
    | zero =>
      cases hprevious
      cases hlater
      exact hreply
    | succ k => exact hrest.replies hprevious hlater
  speaks hmem := by
    rcases List.mem_cons.mp hmem with rfl | hlater
    · exact hspeaks
    · exact hrest.speaks hlater
  ends := by
    rw [List.getLast?_cons_cons]
    exact hrest.ends

theorem IsEnding.tail (hmoves : specification.IsEnding (move :: next :: rest)) :
    specification.IsEnding (next :: rest) where
  replies {k} _ _ hprevious hlater :=
    hmoves.replies (k := k + 1) hprevious hlater
  speaks hmem := hmoves.speaks (List.mem_cons_of_mem move hmem)
  ends := by
    rw [← List.getLast?_cons_cons (a := move)]
    exact hmoves.ends

theorem concludes_of_isEnding
    (hmoves : specification.IsEnding (move :: rest)) :
    specification.Concludes move.2 := by
  induction rest generalizing move with
  | nil =>
    obtain ⟨last, hlast, hterminal⟩ := hmoves.ends
    cases hlast
    exact .terminal hterminal
  | cons next rest ih =>
    have hreply := hmoves.replies (k := 0) rfl rfl
    have hspeaks := hmoves.speaks (List.mem_cons_of_mem move List.mem_cons_self)
    exact .reply hreply hspeaks (ih hmoves.tail)

theorem exists_isEnding (hconcludes : specification.Concludes performative)
    {role : Role} (hspeaks : specification.maySend role performative = true) :
    ∃ rest, specification.IsEnding ((role, performative) :: rest) := by
  induction hconcludes generalizing role with
  | terminal hterminal => exact ⟨[], isEnding_singleton hspeaks hterminal⟩
  | reply hreply hnext _ ih =>
    obtain ⟨rest, hrest⟩ := ih hnext
    exact ⟨_, hrest.cons hspeaks hreply⟩

theorem exists_isConversation_iff :
    (∃ moves, specification.IsConversation moves) ↔
      ∃ performative, specification.isInitiating performative = true
        ∧ specification.maySend .initiator performative = true
        ∧ specification.Concludes performative := by
  constructor
  · rintro ⟨moves, hmoves⟩
    obtain ⟨performative, hhead, hopener⟩ := hmoves.opens
    obtain ⟨rest, rfl⟩ := List.head?_eq_some_iff.mp hhead
    exact ⟨performative, hopener, hmoves.speaks List.mem_cons_self,
      concludes_of_isEnding hmoves.toIsEnding⟩
  · rintro ⟨performative, hopener, hspeaks, hconcludes⟩
    obtain ⟨rest, hrest⟩ := exists_isEnding hconcludes hspeaks
    exact ⟨_, hrest, performative, rfl, hopener⟩

end Conversations

/-! ## Computing whether there is one -/

/-- The performatives that are last, or have a reply among those given that
somebody may send. -/
def conclude (specification : Specification) (known : List String) :
    List String :=
  specification.reply.keys.filter fun performative =>
    specification.isTerminal performative
      || known.any fun next => specification.isReply performative next
        && (specification.maySend .initiator next
          || specification.maySend .responder next)

/-- The performatives after which fewer than so many others reach the end. -/
def concluding (specification : Specification) : (rounds : Nat) → List String
  | 0 => []
  | rounds + 1 => specification.conclude (specification.concluding rounds)

/-- The initiator may say something from which the end can be reached. -/
def isUsable (specification : Specification) : Bool :=
  specification.initiation.any fun performative =>
    specification.maySend .initiator performative
      && performative ∈ specification.concluding specification.reply.size

section Computing

variable {specification : Specification} {known more : List String}
  {performative : String}

theorem mem_keys_of_replies?_eq_some {replies : List String}
    (hreplies : specification.replies? performative = some replies) :
    performative ∈ specification.reply.keys :=
  OrderedMap.mem_keys_iff.mpr ⟨replies, hreplies⟩

theorem mem_conclude_iff :
    performative ∈ specification.conclude known ↔
      specification.isTerminal performative = true
        ∨ ∃ next role, specification.isReply performative next = true
          ∧ specification.maySend role next = true ∧ next ∈ known := by
  simp only [conclude, List.mem_filter, Bool.or_eq_true, List.any_eq_true,
    Bool.and_eq_true]
  constructor
  · rintro ⟨-, hterminal | ⟨next, hknown, hreply, hspeaks | hspeaks⟩⟩
    · exact Or.inl hterminal
    · exact Or.inr ⟨next, .initiator, hreply, hspeaks, hknown⟩
    · exact Or.inr ⟨next, .responder, hreply, hspeaks, hknown⟩
  · rintro (hterminal | ⟨next, role, hreply, hspeaks, hknown⟩)
    · exact ⟨mem_keys_of_replies?_eq_some (isTerminal_iff.mp hterminal),
        Or.inl hterminal⟩
    · obtain ⟨replies, hreplies, -⟩ := isReply_iff.mp hreply
      refine ⟨mem_keys_of_replies?_eq_some hreplies,
        Or.inr ⟨next, hknown, hreply, ?_⟩⟩
      cases role with
      | initiator => exact Or.inl hspeaks
      | responder => exact Or.inr hspeaks

theorem filter_sublist_of_imp {test weaker : String → Bool}
    (himp : ∀ text, test text = true → weaker text = true)
    (texts : List String) :
    (texts.filter test).Sublist (texts.filter weaker) := by
  have htwice : texts.filter test = (texts.filter weaker).filter test := by
    rw [List.filter_filter]
    congr 1
    funext text
    cases htest : test text with
    | false => rfl
    | true => rw [himp text htest, Bool.and_self]
  rw [htwice]
  exact List.filter_sublist

theorem conclude_sublist (hmore : known ⊆ more) :
    (specification.conclude known).Sublist (specification.conclude more) := by
  apply filter_sublist_of_imp
  intro performative hfound
  simp only [Bool.or_eq_true, List.any_eq_true] at hfound ⊢
  apply hfound.imp_right
  rintro ⟨next, hknown, hnext⟩
  exact ⟨next, hmore hknown, hnext⟩

theorem concluding_sublist (specification : Specification) (rounds : Nat) :
    (specification.concluding rounds).Sublist
      (specification.concluding (rounds + 1)) := by
  induction rounds with
  | zero => exact List.nil_sublist _
  | succ rounds ih => exact conclude_sublist ih.subset

/-- As long as rounds add anything, there are as many performatives as rounds. -/
theorem concluding_eq_or_le_length (specification : Specification)
    (rounds : Nat) :
    specification.concluding (rounds + 1) = specification.concluding rounds
      ∨ rounds + 1 ≤ (specification.concluding (rounds + 1)).length := by
  induction rounds with
  | zero =>
    cases hfirst : specification.concluding 1 with
    | nil => exact Or.inl rfl
    | cons performative others => exact Or.inr (Nat.succ_pos _)
  | succ rounds ih =>
    rcases ih with hsame | hlength
    · exact Or.inl (congrArg specification.conclude hsame)
    · have hgrows := specification.concluding_sublist (rounds + 1)
      by_cases hle : (specification.concluding (rounds + 1 + 1)).length
          ≤ (specification.concluding (rounds + 1)).length
      · exact Or.inl (hgrows.eq_of_length_le hle).symm
      · exact Or.inr (by omega)

/-- After as many rounds as the reply table has entries, nothing is added. -/
theorem conclude_concluding (specification : Specification) :
    specification.conclude
        (specification.concluding specification.reply.size)
      = specification.concluding specification.reply.size := by
  rcases specification.concluding_eq_or_le_length specification.reply.size with
    hsame | hlength
  · exact hsame
  · have hle : (specification.concluding (specification.reply.size + 1)).length
        ≤ specification.reply.size := by
      calc
        (specification.concluding (specification.reply.size + 1)).length
            ≤ specification.reply.keys.length := List.length_filter_le _ _
        _ = specification.reply.size := List.length_map _
    omega

theorem concludes_of_mem_concluding {rounds : Nat}
    (hmem : performative ∈ specification.concluding rounds) :
    specification.Concludes performative := by
  induction rounds generalizing performative with
  | zero => cases hmem
  | succ rounds ih =>
    rcases mem_conclude_iff.mp hmem with
      hterminal | ⟨next, role, hreply, hspeaks, hknown⟩
    · exact .terminal hterminal
    · exact .reply hreply hspeaks (ih hknown)

theorem mem_concluding_of_concludes
    (hconcludes : specification.Concludes performative) :
    performative ∈ specification.concluding specification.reply.size := by
  induction hconcludes with
  | terminal hterminal =>
    rw [← conclude_concluding]
    exact mem_conclude_iff.mpr (Or.inl hterminal)
  | reply hreply hspeaks _ ih =>
    rw [← conclude_concluding]
    exact mem_conclude_iff.mpr (Or.inr ⟨_, _, hreply, hspeaks, ih⟩)

theorem isUsable_iff_exists_concludes :
    specification.isUsable = true ↔
      ∃ performative, specification.isInitiating performative = true
        ∧ specification.maySend .initiator performative = true
        ∧ specification.Concludes performative := by
  have hmem : ∀ performative,
      performative ∈ specification.concluding specification.reply.size ↔
        specification.Concludes performative :=
    fun _ => ⟨concludes_of_mem_concluding, mem_concluding_of_concludes⟩
  simp only [isUsable, List.any_eq_true, Bool.and_eq_true, decide_eq_true_iff,
    hmem, isInitiating_iff]

end Computing

/-! ## Dialogues -/

section Dialogues

open History

variable {specification : Specification} {history : History}

/-- What was said in a history, and by whom. -/
def movesOf (history : History) : List (Role × String) :=
  history.map fun entry => (entry.1, entry.2.performative)

/-- The message at index `k` has the id `k + 1` and the target `k`. -/
def IsNumbered (history : History) : Prop :=
  ∀ {k entry}, history[k]? = some entry →
    entry.2.routing.messageId.toNat = k + 1
      ∧ entry.2.routing.target.toNat = k

theorem getElem?_movesOf {k : Nat} {entry : Role × Message}
    (hentry : history[k]? = some entry) :
    (movesOf history)[k]? = some (entry.1, entry.2.performative) := by
  rw [movesOf, List.getElem?_map, hentry]
  rfl

theorem exists_of_getElem?_movesOf {k : Nat} {move : Role × String}
    (hmove : (movesOf history)[k]? = some move) :
    ∃ entry, history[k]? = some entry
      ∧ (entry.1, entry.2.performative) = move := by
  rw [movesOf, List.getElem?_map] at hmove
  exact Option.map_eq_some_iff.mp hmove

/-- A path that the initiator opened and that ended is a conversation. -/
theorem isConversation_of_isPath (hpath : IsPath specification history)
    (hconcluded : IsConcluded specification history) {message : Message}
    (hfirst : history[0]? = some (.initiator, message)) :
    specification.IsConversation (movesOf history) where
  replies := by
    intro k previous next hprevious hnext
    obtain ⟨earlier, hearlier, rfl⟩ := exists_of_getElem?_movesOf hprevious
    obtain ⟨later, hlater, rfl⟩ := exists_of_getElem?_movesOf hnext
    exact isReply_iff.mpr (hpath.replies hearlier hlater)
  speaks := by
    intro move hmem
    obtain ⟨entry, hentry, rfl⟩ := List.mem_map.mp hmem
    exact maySend_iff.mpr (hpath.speaks hentry)
  ends := by
    obtain ⟨last, hlast, hterminal⟩ := hconcluded
    refine ⟨(last.1, last.2.performative), ?_, isTerminal_iff.mpr hterminal⟩
    rw [movesOf, List.getLast?_map, hlast]
    rfl
  opens := by
    refine ⟨message.performative, ?_, isInitiating_iff.mpr (hpath.opens hfirst)⟩
    rw [List.head?_eq_getElem?, getElem?_movesOf hfirst]

theorem isPath_of_isConversation (hnumbered : IsNumbered history)
    (hmoves : specification.IsConversation (movesOf history)) :
    IsPath specification history where
  position := hnumbered
  opens := by
    intro entry hentry
    obtain ⟨performative, hhead, hopener⟩ := hmoves.opens
    rw [List.head?_eq_getElem?, getElem?_movesOf hentry] at hhead
    rw [← (Prod.mk.inj (Option.some.inj hhead)).2] at hopener
    exact isInitiating_iff.mp hopener
  replies hprevious hnext := isReply_iff.mp
    (hmoves.replies (getElem?_movesOf hprevious) (getElem?_movesOf hnext))
  speaks hmem := maySend_iff.mp (hmoves.speaks (List.mem_map_of_mem hmem))

theorem isConcluded_of_isConversation
    (hmoves : specification.IsConversation (movesOf history)) :
    IsConcluded specification history := by
  obtain ⟨move, hlast, hterminal⟩ := hmoves.ends
  rw [movesOf, List.getLast?_map] at hlast
  obtain ⟨last, hfound, rfl⟩ := Option.map_eq_some_iff.mp hlast
  exact ⟨last, hfound, isTerminal_iff.mp hterminal⟩

theorem exists_opener_of_isConversation
    (hmoves : specification.IsConversation (movesOf history)) :
    ∃ message, history[0]? = some (.initiator, message) := by
  obtain ⟨performative, hhead, -⟩ := hmoves.opens
  rw [List.head?_eq_getElem?] at hhead
  obtain ⟨⟨role, message⟩, hentry, hmove⟩ := exists_of_getElem?_movesOf hhead
  cases hmove
  exact ⟨message, hentry⟩

end Dialogues

/-- Whether there is a conversation under a specification can be computed.  New
dialogues that the initiator opens and that a message ends are exactly those
that hold a conversation, its messages numbered from one. -/
theorem isUsable_iff (specification : Specification) :
    (specification.isUsable = true ↔
      ∃ moves, specification.IsConversation moves)
    ∧ ∀ label role history,
      ((∃ final, (Dialogue.start label role).appendAll specification history
            = .ok final ∧ final.isEnded = true)
          ∧ ∃ message, history[0]? = some (.initiator, message)) ↔
        IsNumbered history ∧ specification.IsConversation (movesOf history) := by
  refine ⟨?_, fun label role history => ?_⟩
  · rw [isUsable_iff_exists_concludes, exists_isConversation_iff]
  · have haccepted : (∃ final, (Dialogue.start label role).appendAll
        specification history = .ok final) ↔
          History.IsPath specification history :=
      Dialogue.exists_appendAll_iff History.isPath_nil rfl history
    constructor
    · rintro ⟨⟨final, happend, hended⟩, message, hfirst⟩
      obtain ⟨hhistory, hstate⟩ := Dialogue.appendAll_eq_ok rfl happend
      have hpath := haccepted.mp ⟨final, happend⟩
      have hconcluded := (Dialogue.isEnded_iff_isConcluded hstate).mp hended
      rw [hhistory] at hconcluded
      exact ⟨hpath.position, isConversation_of_isPath hpath hconcluded hfirst⟩
    · rintro ⟨hnumbered, hmoves⟩
      have hpath := isPath_of_isConversation hnumbered hmoves
      obtain ⟨final, happend⟩ := haccepted.mpr hpath
      obtain ⟨hhistory, hstate⟩ := Dialogue.appendAll_eq_ok rfl happend
      have hconcluded := isConcluded_of_isConversation hmoves
      refine ⟨⟨final, happend, ?_⟩, exists_opener_of_isConversation hmoves⟩
      rw [Dialogue.isEnded_iff_isConcluded hstate, hhistory]
      exact hconcluded

/-- A dialogue opens with a greeting, which its initiator may not send. -/
def muteSource : Source where
  name := "greeting"
  author := "parley"
  version := "1.0.0"
  description := none
  speechActs := .ofList [("hello", ∅), ("bye", ∅)]
  customTypes := ∅
  reply := .ofList [("hello", ["bye"]), ("bye", [])]
  roles := ["caller", "callee"]
  endStates := []
  initiation := some ["hello"]
  speakers := .ofList [("caller", ["bye"])]
  terminalOutcomes := ∅

/-- The source is loaded, and nothing can ever be said under it. -/
theorem not_exists_conversation_mute :
    ∃ specification, load muteSource = .ok specification
      ∧ ¬ ∃ moves, specification.IsConversation moves := by
  have hok : (load muteSource).isOk = true := by decide +kernel
  obtain ⟨specification, hload⟩ := exists_of_isOk hok
  refine ⟨specification, hload, ?_⟩
  rw [exists_isConversation_iff, ← isUsable_iff_exists_concludes]
  have hmute : (load muteSource).map isUsable = .ok false := by decide +kernel
  rw [hload] at hmute
  simpa [Except.map] using hmute

end Colloquy.Specification
