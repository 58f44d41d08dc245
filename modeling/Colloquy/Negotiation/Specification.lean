import Colloquy.Negotiation.Act
import Colloquy.Specification.Load

/-!
# The two-party negotiation

The specification that comes with the library, as its author wrote it and as it
is after loading.  A call for proposals is answered by a proposal or declined;
a proposal is accepted or declined; an acceptance is confirmed or declined.
-/

namespace Colloquy.Negotiation

def source : Source where
  name := "two_party_negotiation"
  author := "fetchai"
  version := "0.1.0"
  description := some <|
    "A protocol for negotiation over a fixed set of resources involving two "
      ++ "parties."
  speechActs := .ofList
    [("cfp", .ofList [("query", "ct:Query")]),
      ("propose", .ofList
        [("price", "pt:float"), ("items", "pt:list[pt:str]"),
          ("conditions", "pt:union[pt:str, pt:dict[pt:str, pt:int]]")]),
      ("accept", ∅),
      ("decline", .ofList [("reason", "pt:optional[pt:str]")]),
      ("match_accept", ∅)]
  customTypes := .ofList
    [("Query", .ofList
      [("subject", "pt:str"), ("constraints", "pt:dict[pt:str, pt:int]")])]
  reply := .ofList
    [("cfp", ["propose", "decline"]), ("propose", ["accept", "decline"]),
      ("accept", ["decline", "match_accept"]), ("decline", []),
      ("match_accept", [])]
  roles := ["buyer", "seller"]
  endStates := ["successful", "failed"]
  initiation := some ["cfp"]
  speakers := .ofList
    [("buyer", ["cfp", "accept", "decline"]),
      ("seller", ["propose", "decline", "match_accept"])]
  terminalOutcomes := .ofList
    [("match_accept", "successful"), ("decline", "failed")]

def specification : Specification where
  id := ⟨"fetchai", "two_party_negotiation", "0.1.0"⟩
  description := source.description
  speechActs := .ofList
    [("cfp", .ofList [("query", queryType)]),
      ("propose", .ofList
        [("price", .scalar .float), ("items", .list (.scalar .str)),
          ("conditions", conditionsType)]),
      ("accept", ∅),
      ("decline", .ofList [("reason", .optional (.scalar .str))]),
      ("match_accept", ∅)]
  reply := source.reply
  initiator := "buyer"
  responder := "seller"
  endStates := [⟨"successful"⟩, ⟨"failed"⟩]
  initiation := ["cfp"]
  speakers := .ofList
    [(.initiator, ["cfp", "accept", "decline"]),
      (.responder, ["propose", "decline", "match_accept"])]
  outcomes := .ofList
    [("match_accept", ⟨"successful"⟩), ("decline", ⟨"failed"⟩)]

/-- The source is consistent, and this is what it describes. -/
theorem load_source : Specification.load source = .ok specification := by
  decide +kernel

end Colloquy.Negotiation
