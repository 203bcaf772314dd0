import EngineNode.Proofs.Wire.Records

/-!
The values of the Engine API are read back from what is written for them.

The proofs follow the records: one line says of each field how it is written and read. They rest on
this: a field is left out only where leaving it out means what it is, and written as null only where
it may be null.

* `Payload.readsBack`, `Envelope.readsBack`, `PayloadAttributes.readsBack`, ...: for each type.
* `wire_roundTrips`: for all values of the requests and answers, with any optional fields.
-/

namespace EngineNode

open RecordDecoder Wire

/-! ### Payloads -/

theorem Withdrawal.readsBack : ReadsBack ofJson toJson where
  read w :=
    ReadsFrom.decode_eq_ok
      (ReadsFrom.required readsBack_uint64 "index" w.index |>.map Withdrawal.mk
        |>.seq (.required readsBack_uint64 "validatorIndex" w.validatorIndex)
        |>.seq (.required (readsBack_fixed 20) "address" w.address)
        |>.seq (.required readsBack_uint64 "amount" w.amount))
      (by decide) "Withdrawal"
  ne_null _ := nofun

theorem Payload.readsBack : ReadsBack ofJson toJson where
  read p := by
    have read := ReadsFrom.decode_eq_ok
      (ReadsFrom.required (readsBack_fixed 32) "parentHash" p.parentHash |>.map Payload.mk
        |>.seq (.required (readsBack_fixed 20) "feeRecipient" p.feeRecipient)
        |>.seq (.required (readsBack_fixed 32) "stateRoot" p.stateRoot)
        |>.seq (.required (readsBack_fixed 32) "receiptsRoot" p.receiptsRoot)
        |>.seq (.required readsBack_byteString "logsBloom" p.logsBloom)
        |>.seq (.required (readsBack_fixed 32) "prevRandao" p.prevRandao)
        |>.seq (.required readsBack_uint64 "blockNumber" p.blockNumber)
        |>.seq (.required readsBack_uint64 "gasLimit" p.gasLimit)
        |>.seq (.required readsBack_uint64 "gasUsed" p.gasUsed)
        |>.seq (.required readsBack_uint64 "timestamp" p.timestamp)
        |>.seq (.required readsBack_byteString "extraData" p.extraData)
        |>.seq (.optional readsBack_u256 "baseFeePerGas" p.baseFeePerGas)
        |>.seq (.required (readsBack_fixed 32) "blockHash" p.blockHash)
        |>.seq (.required readsBack_byteStrings "transactions" p.transactions)
        |>.seq (.present Withdrawal.readsBack.list "withdrawals" p.withdrawals)
        |>.seq (.present readsBack_uint64 "blobGasUsed" p.blobGasUsed)
        |>.seq (.present readsBack_uint64 "excessBlobGas" p.excessBlobGas)
        |>.seq (.present (readsBack_fixed 32) "withdrawalsRoot" p.withdrawalsRoot))
      (by decide) "ExecutionPayload"
    simp only [Entries.fields_append, Entries.fields_some, Entries.fields_presentField] at read
    exact read
  ne_null _ := nofun

theorem BlobsBundle.readsBack : ReadsBack ofJson toJson where
  read b :=
    ReadsFrom.decode_eq_ok
      (ReadsFrom.required readsBack_byteStrings "commitments" b.commitments |>.map BlobsBundle.mk
        |>.seq (.required readsBack_byteStrings "proofs" b.proofs)
        |>.seq (.required readsBack_byteStrings "blobs" b.blobs))
      (by decide) "BlobsBundle"
  ne_null _ := nofun

theorem Envelope.readsBack : ReadsBack ofJson toJson where
  read e := by
    have read := ReadsFrom.decode_eq_ok
      (ReadsFrom.required Payload.readsBack "executionPayload" e.payload |>.map Envelope.mk
        |>.seq (.required readsBack_u256 "blockValue" e.blockValue)
        |>.seq (.optional BlobsBundle.readsBack "blobsBundle" e.blobsBundle)
        |>.seq (.present readsBack_byteStrings "executionRequests" e.executionRequests)
        |>.seq (.required .bool "shouldOverrideBuilder" e.shouldOverrideBuilder)
        |>.seq (.present readsBack_byteString "witness" e.witness)
        |>.seq (.present (readsBack_fixed 32) "parentBeaconBlockRoot" e.parentBeaconBlockRoot))
      (by decide) "ExecutionPayloadEnvelope"
    simp only [Entries.fields_append, Entries.fields_some, Entries.fields_presentField] at read
    exact read
  ne_null _ := nofun

/-! ### Requests -/

theorem PayloadAttributes.readsBack : ReadsBack ofJson toJson where
  read a := by
    have read := ReadsFrom.decode_eq_ok
      (ReadsFrom.required readsBack_uint64 "timestamp" a.timestamp |>.map PayloadAttributes.mk
        |>.seq (.required (readsBack_fixed 32) "prevRandao" a.prevRandao)
        |>.seq (.required (readsBack_fixed 20) "suggestedFeeRecipient" a.suggestedFeeRecipient)
        |>.seq (.present Withdrawal.readsBack.list "withdrawals" a.withdrawals)
        |>.seq (.present (readsBack_fixed 32) "parentBeaconBlockRoot" a.parentBeaconBlockRoot)
        |>.seq (.omitted readsBack_byteStrings "transactions" a.transactions List.isEmpty_iff.mp)
        |>.seq (.defaulted .bool "noTxPool" false a.noTxPool)
        |>.seq (.present readsBack_uint64 "gasLimit" a.gasLimit)
        |>.seq (.omitted readsBack_byteString "eip1559Params" a.eip1559Params List.isEmpty_iff.mp))
      (by decide) "PayloadAttributes"
    simp only [Entries.fields_append, Entries.fields_some, Entries.fields_presentField,
      Entries.fields_ite] at read
    exact read
  ne_null _ := nofun

theorem TransitionConfiguration.readsBack : ReadsBack ofJson toJson where
  read c :=
    ReadsFrom.decode_eq_ok
      (ReadsFrom.nullable readsBack_u256 "terminalTotalDifficulty" c.terminalTotalDifficulty
        |>.map TransitionConfiguration.mk
        |>.seq (.required (readsBack_fixed 32) "terminalBlockHash" c.terminalBlockHash)
        |>.seq (.required readsBack_uint64 "terminalBlockNumber" c.terminalBlockNumber))
      (by decide) "TransitionConfigurationV1"
  ne_null _ := nofun

/-! ### Answers -/

theorem PayloadVerdict.readsBack : ReadsBack ofJson toJson where
  read v := by cases v <;> rfl
  ne_null _ := nofun

theorem PayloadStatus.readsBack : ReadsBack ofJson toJson where
  read s := by
    have read := ReadsFrom.decode_eq_ok
      (ReadsFrom.required PayloadVerdict.readsBack "status" s.status |>.map PayloadStatus.mk
        |>.seq (.optional (readsBack_fixed 32) "latestValidHash" s.latestValidHash)
        |>.seq (.optional .string "validationError" s.validationError)
        |>.seq (.present readsBack_byteString "witness" s.witness))
      (by decide) "PayloadStatusV1"
    simp only [Entries.fields_append, Entries.fields_some, Entries.fields_presentField] at read
    exact read
  ne_null _ := nofun

theorem PayloadId.readsBack : ReadsBack ofJson toJson where
  read id := congrArg (PayloadId.mk <$> ·) ((readsBack_fixed 8).read id.bytes)
  ne_null _ := nofun

theorem ForkchoiceResponse.readsBack : ReadsBack ofJson toJson where
  read r :=
    ReadsFrom.decode_eq_ok
      (ReadsFrom.required PayloadStatus.readsBack "payloadStatus" r.payloadStatus
        |>.map ForkchoiceResponse.mk
        |>.seq (.optional PayloadId.readsBack "payloadId" r.payloadId))
      (by decide) "ForkChoiceUpdatedResponse"
  ne_null _ := nofun

/-- **Reading undoes writing** for the values of the Engine API, whichever optional fields they
have. -/
theorem wire_roundTrips :
    (∀ p : Payload, Payload.ofJson p.toJson = .ok p) ∧
    (∀ e : Envelope, Envelope.ofJson e.toJson = .ok e) ∧
    (∀ a : PayloadAttributes, PayloadAttributes.ofJson a.toJson = .ok a) ∧
    (∀ s : PayloadStatus, PayloadStatus.ofJson s.toJson = .ok s) ∧
    (∀ r : ForkchoiceResponse, ForkchoiceResponse.ofJson r.toJson = .ok r) ∧
    (∀ c : TransitionConfiguration, TransitionConfiguration.ofJson c.toJson = .ok c) :=
  ⟨Payload.readsBack.read, Envelope.readsBack.read, PayloadAttributes.readsBack.read,
    PayloadStatus.readsBack.read, ForkchoiceResponse.readsBack.read,
    TransitionConfiguration.readsBack.read⟩

end EngineNode
