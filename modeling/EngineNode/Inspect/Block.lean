import EngineNode.Block
import EngineNode.Payload.Basic

/-!
# Headers and blocks in JSON

The form in which operators see headers and blocks. All fields of a header are written. When one is
read, a field that is missing or null has its value by default.
-/

namespace EngineNode

namespace Header

def toJson (h : Header) : Json :=
  .obj [
    ("parentHash", Wire.encodeFixed h.parentHash), ("ommersHash", Wire.encodeFixed h.ommersHash),
    ("feeRecipient", Wire.encodeFixed h.feeRecipient), ("stateRoot", Wire.encodeFixed h.stateRoot),
    ("transactionsRoot", Wire.encodeFixed h.transactionsRoot),
    ("receiptsRoot", Wire.encodeFixed h.receiptsRoot),
    ("logsBloom", Wire.encodeFixed h.logsBloom), ("difficulty", Wire.encodeU256 h.difficulty),
    ("number", Wire.encodeUInt64 h.number), ("gasLimit", Wire.encodeUInt64 h.gasLimit),
    ("gasUsed", Wire.encodeUInt64 h.gasUsed), ("timestamp", Wire.encodeUInt64 h.timestamp),
    ("extraData", Wire.encodeByteString h.extraData), ("mixHash", Wire.encodeFixed h.mixHash),
    ("nonce", Wire.encodeFixed h.nonce),
    ("baseFeePerGas", .ofOption Wire.encodeU256 h.baseFeePerGas),
    ("withdrawalsRoot", .ofOption Wire.encodeFixed h.withdrawalsRoot),
    ("blobGasUsed", .ofOption Wire.encodeUInt64 h.blobGasUsed),
    ("excessBlobGas", .ofOption Wire.encodeUInt64 h.excessBlobGas),
    ("parentBeaconBlockRoot", .ofOption Wire.encodeFixed h.parentBeaconBlockRoot),
    ("requestsHash", .ofOption Wire.encodeFixed h.requestsHash)]

/-- A 64-bit number, in either notation. -/
def decodeWord : Decoder UInt64 := fun json => UInt64.ofNat <$> Wire.decodeInteger json

/-- A 256-bit number, in either notation. -/
def decodeWide : Decoder U256 := fun json => BitVec.ofNat 256 <$> Wire.decodeInteger json

def hashField (name : String) (value : Hash) : RecordDecoder Hash :=
  .withDefault name (Wire.decodeFixed 32) value

def wordField (name : String) : RecordDecoder UInt64 := .withDefault name decodeWord 0

def record : RecordDecoder Header :=
  Header.mk <$> hashField "parentHash" (.zero 32) <*> hashField "ommersHash" emptyOmmersHash
    <*> .withDefault "feeRecipient" (Wire.decodeFixed 20) (.zero 20)
    <*> hashField "stateRoot" (.zero 32) <*> hashField "transactionsRoot" (.zero 32)
    <*> hashField "receiptsRoot" (.zero 32)
    <*> .withDefault "logsBloom" (Wire.decodeFixed 256) (.zero 256)
    <*> .withDefault "difficulty" decodeWide 0
    <*> wordField "number" <*> wordField "gasLimit" <*> wordField "gasUsed"
    <*> wordField "timestamp" <*> .withDefault "extraData" Wire.decodeByteString []
    <*> hashField "mixHash" (.zero 32)
    <*> .withDefault "nonce" (Wire.decodeFixed 8) (.zero 8)
    <*> absentField "baseFeePerGas" decodeWide
    <*> absentField "withdrawalsRoot" (Wire.decodeFixed 32)
    <*> absentField "blobGasUsed" decodeWord <*> absentField "excessBlobGas" decodeWord
    <*> absentField "parentBeaconBlockRoot" (Wire.decodeFixed 32)
    <*> absentField "requestsHash" (Wire.decodeFixed 32)

def ofJson : Decoder Header := record.decode "Header"

end Header

/-- A transaction, given by its bytes. -/
def Transaction.ofJson : Decoder Transaction := fun json => do
  match Transaction.decode (← Wire.decodeByteString json) with
  | .ok tx => return tx
  | .error _ => throw (.invalidValue json "a transaction")

def Transaction.toJson (tx : Transaction) : Json := Wire.encodeByteString tx.bytes

namespace Block

def toJson (b : Block) : Json :=
  .obj [
    ("header", b.header.toJson),
    ("transactions", .ofList Transaction.toJson b.transactions),
    ("withdrawals", .ofOption (Json.ofList Withdrawal.toJson) b.withdrawals),
    ("hash", Wire.encodeFixed b.hash)]

def record : RecordDecoder Block :=
  (fun header transactions withdrawals => ⟨header, transactions, withdrawals⟩)
    <$> .withDefault "header" Header.ofJson {}
    <*> .withDefault "transactions" (Decoder.list Transaction.ofJson) []
    <*> absentField "withdrawals" (Decoder.list Withdrawal.ofJson)

def ofJson : Decoder Block := record.decode "Block"

end Block

end EngineNode
