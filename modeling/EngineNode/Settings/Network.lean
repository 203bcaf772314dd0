import EngineNode.ChainConfig

/-!
# Networks

The networks whose configuration is built in.
-/

namespace EngineNode

inductive Network where
  | optimismDevnet
  | ethereumDevnet
  | opMainnet
  | mainnet
deriving DecidableEq, Repr

namespace Network

def all : List Network := [optimismDevnet, ethereumDevnet, opMainnet, mainnet]

def name : Network → String
  | .optimismDevnet => "optimism-devnet"
  | .ethereumDevnet => "ethereum-devnet"
  | .opMainnet => "op-mainnet"
  | .mainnet => "mainnet"

def ofName? (name : String) : Option Network := all.find? (·.name = name)

def config : Network → ChainConfig
  | .optimismDevnet => .optimismDevnet
  | .ethereumDevnet => .ethereumDevnet
  | .opMainnet => .opMainnet
  | .mainnet => .ethereumMainnet

end Network

end EngineNode
