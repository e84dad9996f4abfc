import FabricXSdk.Blocks.Parser

/-!
# Fabric-X blocks

The metadata of a Fabric-X transaction, the conversion of its namespaces to
read/write sets, the status of a committer code, and the parser.

## Implementation notes

The numbers and names of the committer's codes come from the protocol definition
and are a parameter, as for classic Fabric.
-/

namespace FabricXSdk.Blocks.FabricX

open Golang

/-- The committer codes the SDK names, and the name of every code. -/
structure CommitterCodes where
  committed : Int
  statusUnspecified : Int
  abortedSignatureInvalid : Int
  abortedMvccConflict : Int
  rejectedDuplicateTxId : Int
  string : Int → Text
  distinct : [committed, statusUnspecified, abortedSignatureInvalid, abortedMvccConflict,
    rejectedDuplicateTxId].Nodup

def statusFromCommitterStatus (codes : CommitterCodes) (s : Int) : Status × Int × Text :=
  let status : Status :=
    if s = codes.committed then .committed
    else if s = codes.statusUnspecified then .unknown
    else if s = codes.abortedSignatureInvalid then .invalidSignature
    else if s = codes.abortedMvccConflict then .mvccConflict
    else if s = codes.rejectedDuplicateTxId then .duplicateTxID
    -- the range of the codes for malformed transactions
    else if 100 ≤ s then .malformed
    else .unrecognized
  (status, s, codes.string s)

def statusForTx (codes : CommitterCodes) (txFilter : Bytes) (txNum : ℕ) : Status × Int × Text :=
  match txFilter[txNum]? with
  | none => (.unknown, 0, [.lit "missing tx filter entry"])
  | some code => statusFromCommitterStatus codes code.val

/-- The SDK-defined content of a transaction's metadata. -/
structure Metadata where
  event : Bytes
  eventName : GoString
  payload : Bytes
  inputArgs : List Bytes
  deriving DecidableEq, Repr

def Metadata.empty : Metadata where
  event := []
  eventName := []
  payload := []
  inputArgs := []

section Model

variable (c : Proto.Codecs)

def encodeMetadata (m : Metadata) : Except Text (List Bytes) :=
  match c.metadata.marshal ⟨m.inputArgs, m.event, m.eventName, m.payload⟩ with
  | .error err => .error (.lit "marshal metadata: " :: err)
  | .ok b => .ok [b]

/-- Missing or undecodable metadata reads as empty. -/
def decodeMetadata (metadata : List Bytes) : Metadata :=
  match metadata with
  | [] => Metadata.empty
  | b :: _ =>
      match c.metadata.unmarshal b with
      | .error _ => Metadata.empty
      | .ok pm => ⟨pm.event, pm.eventName, pm.payload, pm.inputArgs⟩

/-- A read of a key, where the version of a key is a single number. -/
def decodeRead (key : Bytes) (version : Option ℕ) : KVRead where
  key := key
  version := version.map fun v => ⟨v, 0⟩

def decodeWrite (key value : Bytes) : KVWrite where
  key := key
  isDelete := false
  value := value

/-- One pass of the loop of `DecodeNamespaces`. -/
def decodeNamespace (ns : Proto.TxNamespace) : NsReadWriteSet where
  ns := ns.nsId
  rws :=
    -- three loops over the namespace, and the read-writes add to both lists
    { reads := (ns.readsOnly.map fun r => decodeRead r.key r.version) ++
        ns.readWrites.map fun rw => decodeRead rw.key rw.version
      writes := (ns.blindWrites.map fun bw => decodeWrite bw.key bw.value) ++
        ns.readWrites.map fun rw => decodeWrite rw.key rw.value }

def decodeNamespaces (namespaces : List Proto.TxNamespace) : List NsReadWriteSet :=
  namespaces.map decodeNamespace

def parseTx (env : Proto.Envelope) : Outcome (Option Transaction) :=
  match openEnvelope c env with
  | .error err => .error err
  | .ok (pl, chdr) =>
      if chdr.type ≠ Proto.headerTypeMessage then .ok none
      else do
        let ptx ← Outcome.ofExcept "transaction" (c.tx.unmarshal pl.data)
        let md := decodeMetadata c ptx.metadata
        pure (some
          { id := chdr.txId
            number := 0
            inputArgs := md.inputArgs
            status := .unknown
            rawCode := 0
            reason := []
            event := md.event
            eventName := md.eventName
            payload := md.payload
            nsRWS := decodeNamespaces ptx.namespaces })

def parser (codes : CommitterCodes) : TxParser where
  parseTx := parseTx c
  statusForTx := statusForTx codes

def parse (codes : CommitterCodes) (hash : Proto.BlockHeader → Bytes) (now : Int)
    (b : Proto.Block) : Outcome Block :=
  parseBlock c hash (parser c codes) now b

end Model

theorem parseTx_ne_panic (c : Proto.Codecs) (env : Proto.Envelope) : parseTx c env ≠ .panic := by
  simp only [parseTx]
  split
  · simp
  · split
    · simp
    · simp [Outcome.bind_eq_panic]

end FabricXSdk.Blocks.FabricX
