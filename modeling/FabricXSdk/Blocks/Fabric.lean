import FabricXSdk.Blocks.Parser

/-!
# Classic Fabric blocks

The status of a validation code, and the parser that unwraps an endorser
transaction down to its read/write sets.

## Implementation notes

The numbers and names of the validation codes come from the protocol definition
and are a parameter. A switch over constants does not compile with a duplicate,
so they are distinct.
-/

namespace FabricXSdk.Blocks.Fabric

open Golang

/-- The validation codes the SDK names, and the name of every code. -/
structure TxValidationCodes where
  valid : Int
  badCreatorSignature : Int
  duplicateTxid : Int
  mvccReadConflict : Int
  phantomReadConflict : Int
  endorsementPolicyFailure : Int
  notValidated : Int
  string : Int → Text
  distinct : [valid, badCreatorSignature, duplicateTxid, mvccReadConflict, phantomReadConflict,
    endorsementPolicyFailure, notValidated].Nodup

def statusFromValidationCode (codes : TxValidationCodes) (code : Int) : Status × Int × Text :=
  let status : Status :=
    if code = codes.valid then .committed
    else if code = codes.badCreatorSignature then .invalidSignature
    else if code = codes.duplicateTxid then .duplicateTxID
    else if code = codes.mvccReadConflict ∨ code = codes.phantomReadConflict then .mvccConflict
    else if code = codes.endorsementPolicyFailure then .endorsementPolicyFailure
    else if code = codes.notValidated then .unknown
    else .malformed
  (status, code, codes.string code)

def statusForTx (codes : TxValidationCodes) (txFilter : Bytes) (txNum : ℕ) : Status × Int × Text :=
  match txFilter[txNum]? with
  | none => (.unknown, 0, [.lit "missing tx filter entry"])
  | some code => statusFromValidationCode codes code.val

section Model

variable (c : Proto.Codecs)

def parseRead (r : Proto.KVRead) : KVRead where
  key := r.key
  version := r.version.map fun v => ⟨v.blockNum, v.txNum⟩

def parseWrite (w : Proto.KVWrite) : KVWrite where
  key := w.key
  isDelete := w.isDelete
  value := w.value

/-- The loop over the namespaces of a read/write set. -/
def parseNamespaces : List Proto.NsReadWriteSet → Outcome (List NsReadWriteSet)
  | [] => .ok []
  | ns :: rest =>
      -- an entry without a name is skipped, also if its set does not decode
      if ns.ns.length = 0 then parseNamespaces rest
      else do
        let kvs ← Outcome.ofExcept "kvrwset" (c.kvRWSet.unmarshal ns.rwset)
        let tail ← parseNamespaces rest
        pure (⟨ns.ns, ⟨kvs.reads.map parseRead, kvs.writes.map parseWrite⟩⟩ :: tail)

/-- The event of a chaincode action, and its name. -/
def parseEvent (ccAct : Proto.ChaincodeAction) : Outcome (Bytes × GoString) :=
  if 0 < ccAct.events.length then do
    let evt ← Outcome.ofExcept "chaincode event" (c.chaincodeEvent.unmarshal ccAct.events)
    pure (evt.payload, evt.eventName)
  else pure ([], [])

/-- The part of `ParseTx` that reads the endorsed action. -/
def parseEndorsed (txID : GoString) (inputArgs : List Bytes)
    (action : Proto.ChaincodeEndorsedAction) : Outcome Transaction := do
  let prp ← Outcome.ofExcept "proposal response payload"
    (c.proposalResponsePayload.unmarshal action.proposalResponsePayload)
  let ccAct ← Outcome.ofExcept "chaincode action" (c.chaincodeAction.unmarshal prp.extension)
  let event ← parseEvent c ccAct
  let txRWSet ← Outcome.ofExcept "rwset" (c.txReadWriteSet.unmarshal ccAct.results)
  let nsRWS ← parseNamespaces c txRWSet.nsRwset
  pure
    { id := txID
      number := 0
      inputArgs := inputArgs
      status := .unknown
      rawCode := 0
      reason := []
      event := event.1
      eventName := event.2
      payload := (ccAct.response.map Proto.Response.payload).getD []
      nsRWS := nsRWS }

/-- The part of `ParseTx` that reads the only action of a transaction. -/
def parseAction (txID : GoString) (action : Proto.TransactionAction) : Outcome Transaction := do
  let cap ← Outcome.ofExcept "chaincode action payload"
    (c.chaincodeActionPayload.unmarshal action.payload)
  let cpp ← Outcome.ofExcept "chaincode proposal payload"
    (c.chaincodeProposalPayload.unmarshal cap.chaincodeProposalPayload)
  let cis ← Outcome.ofExcept "chaincode invocation spec"
    (c.chaincodeInvocationSpec.unmarshal cpp.input)
  let inputArgs :=
    ((cis.chaincodeSpec.bind Proto.ChaincodeSpec.input).map Proto.ChaincodeInput.args).getD []
  -- `cap.Action.ProposalResponsePayload`, without a check of `cap.Action`
  let endorsed ← Outcome.deref cap.action
  parseEndorsed c txID inputArgs endorsed

def parseTx (env : Proto.Envelope) : Outcome (Option Transaction) :=
  match openEnvelope c env with
  | .error err => .error err
  | .ok (pl, chdr) =>
      if chdr.type ≠ Proto.headerTypeEndorserTransaction then .ok none
      else do
        let ptx ← Outcome.ofExcept "transaction" (c.transaction.unmarshal pl.data)
        match ptx.actions with
        | [action] => do
            let tx ← parseAction c chdr.txId action
            pure (some tx)
        | actions =>
            .error [.lit "only one action per transaction is supported, tx contains ",
              .num actions.length]

def parser (codes : TxValidationCodes) : TxParser where
  parseTx := parseTx c
  statusForTx := statusForTx codes

def parse (codes : TxValidationCodes) (hash : Proto.BlockHeader → Bytes) (now : Int)
    (b : Proto.Block) : Outcome Block :=
  parseBlock c hash (parser c codes) now b

end Model

section Panic

variable {c : Proto.Codecs}

/-- An endorser transaction with one action that decodes down to the invocation
spec, but carries no endorsed action. -/
def LacksAction (c : Proto.Codecs) (env : Proto.Envelope) : Prop :=
  ∃ pl chdr ptx action cap cpp cis, openEnvelope c env = .ok (pl, chdr) ∧
    chdr.type = Proto.headerTypeEndorserTransaction ∧ c.transaction.unmarshal pl.data = .ok ptx ∧
    ptx.actions = [action] ∧ c.chaincodeActionPayload.unmarshal action.payload = .ok cap ∧
    c.chaincodeProposalPayload.unmarshal cap.chaincodeProposalPayload = .ok cpp ∧
    c.chaincodeInvocationSpec.unmarshal cpp.input = .ok cis ∧ cap.action = none

theorem parseNamespaces_ne_panic (nss : List Proto.NsReadWriteSet) :
    parseNamespaces c nss ≠ .panic := by
  induction nss with
  | nil => simp [parseNamespaces]
  | cons ns rest ih =>
      simp only [parseNamespaces]
      split
      · exact ih
      · simp [Outcome.bind_eq_panic, ih]

theorem parseEvent_ne_panic (ccAct : Proto.ChaincodeAction) : parseEvent c ccAct ≠ .panic := by
  simp only [parseEvent]
  split
  · simp [Outcome.bind_eq_panic]
  · simp

theorem parseEndorsed_ne_panic (txID : GoString) (inputArgs : List Bytes)
    (action : Proto.ChaincodeEndorsedAction) : parseEndorsed c txID inputArgs action ≠ .panic := by
  simp [parseEndorsed, Outcome.bind_eq_panic, parseEvent_ne_panic, parseNamespaces_ne_panic]

theorem parseAction_eq_panic {txID : GoString} {action : Proto.TransactionAction} :
    parseAction c txID action = .panic ↔
      ∃ cap cpp cis, c.chaincodeActionPayload.unmarshal action.payload = .ok cap ∧
        c.chaincodeProposalPayload.unmarshal cap.chaincodeProposalPayload = .ok cpp ∧
        c.chaincodeInvocationSpec.unmarshal cpp.input = .ok cis ∧ cap.action = none := by
  simp [parseAction, Outcome.bind_eq_panic, Outcome.ofExcept_eq_ok, parseEndorsed_ne_panic]

/-- The pointer to the endorsed action is the only one `ParseTx` follows unchecked. -/
theorem parseTx_eq_panic {env : Proto.Envelope} :
    parseTx c env = .panic ↔ LacksAction c env := by
  constructor
  · intro h
    simp only [parseTx] at h
    split at h
    · cases h
    · rename_i pl chdr hopen
      split at h
      · cases h
      · rename_i htype
        rw [Outcome.bind_eq_panic] at h
        rcases h with h | ⟨ptx, hptx, h⟩
        · exact absurd h (Outcome.ofExcept_ne_panic _ _)
        · split at h
          · rename_i action hactions
            rw [Outcome.bind_eq_panic] at h
            rcases h with h | ⟨tx, _, h⟩
            · obtain ⟨cap, cpp, cis, hcap, hcpp, hcis, hnone⟩ := parseAction_eq_panic.mp h
              exact ⟨pl, chdr, ptx, action, cap, cpp, cis, hopen, not_not.mp htype,
                Outcome.ofExcept_eq_ok.mp hptx, hactions, hcap, hcpp, hcis, hnone⟩
            · cases h
          · cases h
  · rintro ⟨pl, chdr, ptx, action, cap, cpp, cis, hopen, htype, hptx, hactions, hcap, hcpp, hcis,
      hnone⟩
    have hpanic : parseAction c chdr.txId action = .panic :=
      parseAction_eq_panic.mpr ⟨cap, cpp, cis, hcap, hcpp, hcis, hnone⟩
    simp [parseTx, hopen, htype, hptx, hactions, hpanic, Outcome.ofExcept]

end Panic

section Layers

variable {c : Proto.Codecs}

/-- An endorser transaction with one action whose layers decode down to a chaincode
action. -/
def Carries (c : Proto.Codecs) (env : Proto.Envelope) (txID : GoString) (inputArgs : List Bytes)
    (ccAct : Proto.ChaincodeAction) : Prop :=
  ∃ pl chdr ptx action cap cpp cis endorsed prp, openEnvelope c env = .ok (pl, chdr) ∧
    chdr.type = Proto.headerTypeEndorserTransaction ∧ chdr.txId = txID ∧
    c.transaction.unmarshal pl.data = .ok ptx ∧ ptx.actions = [action] ∧
    c.chaincodeActionPayload.unmarshal action.payload = .ok cap ∧
    c.chaincodeProposalPayload.unmarshal cap.chaincodeProposalPayload = .ok cpp ∧
    c.chaincodeInvocationSpec.unmarshal cpp.input = .ok cis ∧
    ((cis.chaincodeSpec.bind Proto.ChaincodeSpec.input).map Proto.ChaincodeInput.args).getD [] =
      inputArgs ∧
    cap.action = some endorsed ∧
    c.proposalResponsePayload.unmarshal endorsed.proposalResponsePayload = .ok prp ∧
    c.chaincodeAction.unmarshal prp.extension = .ok ccAct

/-- `ParseTx` unwraps the layers and reads the event and the results. -/
theorem Carries.parseTx {env : Proto.Envelope} {txID : GoString} {inputArgs : List Bytes}
    {ccAct : Proto.ChaincodeAction} {event : Bytes × GoString} {set : Proto.TxReadWriteSet}
    {nsRWS : List NsReadWriteSet} (h : Carries c env txID inputArgs ccAct)
    (hevent : parseEvent c ccAct = .ok event)
    (hset : c.txReadWriteSet.unmarshal ccAct.results = .ok set)
    (hns : parseNamespaces c set.nsRwset = .ok nsRWS) :
    parseTx c env = .ok (some
      { id := txID
        number := 0
        inputArgs := inputArgs
        status := .unknown
        rawCode := 0
        reason := []
        event := event.1
        eventName := event.2
        payload := (ccAct.response.map Proto.Response.payload).getD []
        nsRWS := nsRWS }) := by
  obtain ⟨pl, chdr, ptx, action, cap, cpp, cis, endorsed, prp, hopen, htype, rfl, hptx, hactions,
    hcap, hcpp, hcis, rfl, haction, hprp, hact⟩ := h
  simp [Fabric.parseTx, hopen, htype, hptx, hactions, parseAction, hcap, hcpp, hcis, haction,
    parseEndorsed, hprp, hact, hevent, hset, hns, Outcome.ofExcept, Outcome.deref]

end Layers

end FabricXSdk.Blocks.Fabric
