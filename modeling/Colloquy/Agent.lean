import Colloquy.Registry

/-!
# Agents

All registries of one agent: one for every protocol, with the same limits.
-/

namespace Colloquy

structure Agent where
  address : Address
  limits : Registry.Limits
  registries : OrderedMap ProtocolId Registry
  deriving Repr, Inhabited

namespace Agent

def empty (address : Address) (limits : Registry.Limits) : Agent where
  address
  limits
  registries := ∅

/-- Add a registry for a protocol; one that is there already stays. -/
def register (agent : Agent) (specification : Specification) : Agent :=
  { agent with
    registries := agent.registries.insertNew specification.id
      (.empty specification agent.address agent.limits) }

def registry? (agent : Agent) (id : ProtocolId) : Option Registry :=
  agent.registries.get? id

/-- Put a registry in the place of the one for its protocol. -/
def setRegistry (agent : Agent) (id : ProtocolId) (registry : Registry) :
    Agent :=
  { agent with registries := agent.registries.set id registry }

/-- Take a payload under one of the protocols. -/
def receive (agent : Agent) (supply : HalfSupply) (id : ProtocolId)
    (payload : Bytes) (sender : Address) :
    Except ProtocolError (Dialogue × Message) × Agent :=
  match agent.registry? id with
  | none => (.error (.unknownProtocol id), agent)
  | some registry =>
    match registry.receive supply payload sender with
    | (result, registry) => (result, agent.setRegistry id registry)

end Agent

end Colloquy
