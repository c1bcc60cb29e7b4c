import VizGateway.VizChain

/-!
# Reading the remote chains

On TON a burn is a committed inbound transfer of the gateway's own jetton wallet, its sender and
comment read off the message body bit by bit. On Solana a peg-out is a finalized transfer into a
deposit ATA.
-/

namespace VizGateway

open Checks Text

/-! ## Slices -/

inductive Cell
  | mk (bits : List Bool) (refs : List Cell)

def Cell.bits : Cell → List Bool
  | .mk bits _ => bits

def Cell.refs : Cell → List Cell
  | .mk _ refs => refs

/-- What is left to read of a cell. -/
structure Slice where
  bits : List Bool
  refs : List Cell

def Cell.beginParse (c : Cell) : Slice := ⟨c.bits, c.refs⟩

/-- The unsigned number of a bit string, most significant bit first. -/
def bitsToNat (bits : List Bool) : ℕ := bits.foldl (fun n b => 2 * n + b.toNat) 0

namespace Slice

def skip (s : Slice) (n : ℕ) : Slice := { s with bits := s.bits.drop n }

/-- The next `n` bits. -/
def loadBits (s : Slice) (n : ℕ) : Except String (List Bool × Slice) :=
  if s.bits.length < n then .error s!"Index {n} is out of bounds" else .ok (s.bits.take n, s.skip n)

def loadUint (s : Slice) (n : ℕ) : Except String (ℕ × Slice) := do
  let (bits, s) ← s.loadBits n
  return (bitsToNat bits, s)

/-- A four-bit byte count, then that many bytes. -/
def loadCoins (s : Slice) : Except String (ℕ × Slice) := do
  let (size, s) ← s.loadUint 4
  s.loadUint (size * 8)

/-- An internal address after its two type bits: no anycast, a signed workchain byte, a hash. -/
def loadInternalAddress (s : Slice) : Except String (TonAddress × Slice) := do
  let (anycast, s) ← s.loadUint 1
  require (anycast = 0) "Invalid address"
  let (wc, s) ← s.loadUint 8
  let (hash, s) ← s.loadBits 256
  return (⟨if wc < 128 then (wc : ℤ) else (wc : ℤ) - 256, hash⟩, s)

def loadAddress (s : Slice) : Except String (TonAddress × Slice) := do
  let (type, s) ← s.loadUint 2
  require (type = 2) s!"Invalid address: {type}"
  s.loadInternalAddress

def loadMaybeAddress (s : Slice) : Except String (Option TonAddress × Slice) := do
  let (type, s) ← s.loadUint 2
  if type = 0 then return (none, s)
  else
    require (type = 2) "Invalid address"
    let (addr, s) ← s.loadInternalAddress
    return (some addr, s)

def loadRef (s : Slice) : Except String (Cell × Slice) :=
  match s.refs with
  | [] => .error "No more references"
  | c :: rest => .ok (c, { s with refs := rest })

/-- A bit string cut into bytes. -/
def toBytes (bits : List Bool) : ℕ → List (List Bool)
  | 0 => []
  | n + 1 => bits.take 8 :: toBytes (bits.drop 8) n

end Slice

/-- The bytes of a string tail, followed through at most one reference a cell. -/
def Cell.stringBytes : Cell → Except String (List (List Bool))
  | .mk bits [] => do
    require (bits.length % 8 = 0) s!"Invalid string length: {bits.length}"
    return Slice.toBytes bits (bits.length / 8)
  | .mk bits [next] => do
    require (bits.length % 8 = 0) s!"Invalid string length: {bits.length}"
    require (1023 - bits.length ≤ 7) s!"invalid string length: {bits.length / 8}"
    let rest ← next.stringBytes
    return Slice.toBytes bits (bits.length / 8) ++ rest
  | .mk bits (_ :: _ :: rest) => do
    require (bits.length % 8 = 0) s!"Invalid string length: {bits.length}"
    throw s!"invalid number of refs: {rest.length + 2}"

def Slice.loadStringTail (L : Libs) (s : Slice) : Except String String :=
  L.utf8 <$> (Cell.mk s.bits s.refs).stringBytes

/-! ## Burns on TON -/

def opTransferNotification : ℕ := 0x7362d09c

def opInternalTransfer : ℕ := 0x178d4519

structure JettonDeposit where
  amountBaseUnits : ℕ
  sender : String
  comment : String
  deriving DecidableEq, Repr

/-- `parseJettonDeposit`. -/
def parseJettonDeposit (L : Libs) (body : Slice) : Except String (Option JettonDeposit) :=
  if body.bits.length < 32 then .ok none
  else do
    let (op, body) ← body.loadUint 32
    if op ≠ opTransferNotification ∧ op ≠ opInternalTransfer then return none
    else
      let (_, body) ← body.loadUint 64
      let (amountBaseUnits, body) ← body.loadCoins
      let (sender, body) ← body.loadAddress
      let body ← if op = opInternalTransfer then do
          let (_, body) ← body.loadMaybeAddress
          let (_, body) ← body.loadCoins
          pure body
        else pure body
      let (inRef, body) ← body.loadUint 1
      let fp ← if inRef = 1 then do
          let (c, _) ← body.loadRef
          pure c.beginParse
        else pure body
      let comment ← if 32 ≤ fp.bits.length then do
          let (tag, fp) ← fp.loadUint 32
          if tag = 0 then fp.loadStringTail L else pure ""
        else pure ""
      return some { amountBaseUnits, sender := L.addressToString sender, comment }

/-- A transaction's description, as far as the compute phase goes. -/
inductive TxDescription
  | genericVm (success : Bool)
  | genericSkipped
  | other
  deriving DecidableEq, Repr

/-- A transaction of the gateway wallet. -/
structure GramTx where
  hash : String
  lt : ℕ
  now : ℤ
  description : TxDescription
  inMessageBody : Option Cell

/-- `txComputeSucceeded`. -/
def txComputeSucceeded (tx : GramTx) : Bool := tx.description = .genericVm true

/-- `burnFromTx`. -/
def burnFromTx (L : Libs) (tx : GramTx) (cutoff : ℤ) (height : ℕ) :
    Except String (Option RemoteBurn) :=
  if tx.now > cutoff then .ok none
  else if txComputeSucceeded tx = false then .ok none
  else match tx.inMessageBody with
    | none => .ok none
    | some body =>
      if body.bits = [] then .ok none
      else do
        match ← parseJettonDeposit L body.beginParse with
        | none => return none
        | some parsed =>
          return some {
            chain := .gram, sourceId := tx.hash, height
            sender := parsed.sender, amountMilliViz := parsed.amountBaseUnits
            homeDestination := trim parsed.comment }

/-- What the operator's TON node answers at one moment: the newest transactions of the gateway
wallet, the masterchain height and the box's clock. -/
structure GramNode where
  gatewayWallet : Bool
  finalityBufferSec : ℤ
  nowMs : ℤ
  getTransactions : Except String (List GramTx)
  latestSeqno : Except String ℕ

def GramNode.cutoff (node : GramNode) : ℤ := node.nowMs / 1000 - node.finalityBufferSec

/-- `GramHttpChain.getBurn`. -/
def getBurn (L : Libs) (node : GramNode) (sourceId : String) : Except String (Option RemoteBurn) :=
  if node.gatewayWallet = false then .ok none
  else do
    let txs ← node.getTransactions
    match txs.find? fun tx => tx.hash = sourceId with
    | none => return none
    | some tx =>
      let height ← node.latestSeqno
      burnFromTx L tx node.cutoff height

/-- A final burn on the node: a committed transfer in the scanned history, past the buffer. -/
def GramNode.Final (L : Libs) (node : GramNode) (b : RemoteBurn) : Prop :=
  ∃ txs tx height, node.getTransactions = .ok txs ∧ tx ∈ txs ∧ tx.hash = b.sourceId
    ∧ burnFromTx L tx node.cutoff height = .ok (some b)

theorem burnFromTx_eq_some {L : Libs} {tx : GramTx} {cutoff : ℤ} {height : ℕ} {b : RemoteBurn}
    (h : burnFromTx L tx cutoff height = .ok (some b)) :
    tx.now ≤ cutoff ∧ txComputeSucceeded tx = true ∧ ∃ body parsed, tx.inMessageBody = some body
      ∧ parseJettonDeposit L body.beginParse = .ok (some parsed)
      ∧ b = { chain := .gram, sourceId := tx.hash, height, sender := parsed.sender
              amountMilliViz := parsed.amountBaseUnits
              homeDestination := trim parsed.comment } := by
  unfold burnFromTx at h
  split_ifs at h with hcut hcomp
  · simp at h
  · simp at h
  · split at h
    · simp at h
    · next body hbody =>
      split_ifs at h with hempty
      · simp at h
      · rw [bind_eq_ok] at h
        obtain ⟨parsed, hp, h⟩ := h
        cases parsed with
        | none => simp at h
        | some parsed =>
          simp only [pure_eq_ok, Option.some.injEq] at h
          exact ⟨Int.not_lt.1 hcut, by simpa using hcomp, body, parsed, hbody, hp, h.symm⟩

/-- A burn read back is final and carries the very id it was asked for. -/
theorem getBurn_eq_some {L : Libs} {node : GramNode} {sourceId : String} {b : RemoteBurn}
    (h : getBurn L node sourceId = .ok (some b)) : node.Final L b ∧ b.sourceId = sourceId := by
  unfold getBurn at h
  split_ifs at h with hw
  · simp at h
  · rw [bind_eq_ok] at h
    obtain ⟨txs, htxs, h⟩ := h
    split at h
    · simp at h
    · next tx htx =>
      rw [bind_eq_ok] at h
      obtain ⟨height, -, h⟩ := h
      have hhash : tx.hash = sourceId := by simpa using List.find?_some htx
      obtain ⟨-, -, body, parsed, -, -, hb⟩ := burnFromTx_eq_some h
      have hid : b.sourceId = tx.hash := by rw [hb]
      exact ⟨⟨txs, tx, height, htxs, List.mem_of_find?_eq_some htx, hid.symm, h⟩,
        hid.trans hhash⟩

theorem getBurn_chain {L : Libs} {node : GramNode} {sourceId : String} {b : RemoteBurn}
    (h : getBurn L node sourceId = .ok (some b)) : b.chain = .gram := by
  obtain ⟨⟨txs, tx, height, -, -, -, hb⟩, -⟩ := getBurn_eq_some h
  obtain ⟨-, -, body, parsed, -, -, rfl⟩ := burnFromTx_eq_some hb
  rfl

/-! ## Deposits on Solana -/

/-- The parsed fields of a token instruction. -/
structure TokenInfo where
  type : String
  destination : Option Json
  tokenAmount : Option (Option String)
  amount : Option String
  authority : Option Json
  source : Option Json
  deriving DecidableEq, Repr

/-- One instruction, top-level or inner. -/
structure SolanaIx where
  program : Option String
  programId : Option String
  memo : Option Json
  token : Option TokenInfo
  deriving DecidableEq, Repr

/-- A parsed transaction, its inner instructions after the top-level ones. -/
structure ParsedTx where
  slot : ℕ
  err : Bool
  instructions : List SolanaIx
  deriving DecidableEq, Repr

def memoProgramId : String := "MemoSq4gq4PtfDg1xv9JaY9Cz9c6Tn3ANk6tDsj4hf"

structure GatewayDeposit where
  sender : String
  amountBaseUnits : ℤ
  memo : String
  deriving DecidableEq, Repr

/-- What the instruction loop has gathered. -/
structure DepositScan where
  amount : Option ℤ := none
  sender : String := ""
  memo : String := ""
  deriving DecidableEq, Repr

/-- Whether an instruction is a memo. -/
def SolanaIx.isMemo (ix : SolanaIx) : Bool :=
  ix.program = some "spl-memo" || ix.programId = some memoProgramId

/-- The transfer into `ata` an instruction makes, if it is one. -/
def SolanaIx.transferInto (ix : SolanaIx) (ata : String) : Option TokenInfo :=
  if ix.program = some "spl-token" ∨ ix.program = some "spl-token-2022" then
    ix.token.filter fun info =>
      (info.type = "transfer" || info.type = "transferChecked")
        && info.destination = some (.str ata)
  else none

/-- One turn of the instruction loop; a later transfer overwrites an earlier one's amount. -/
def depositScanStep (ata : String) (acc : DepositScan) (ix : SolanaIx) :
    Except String DepositScan :=
  if ix.isMemo then .ok { acc with memo := jsStringOr "" ix.memo }
  else match ix.transferInto ata with
    | none => .ok acc
    | some info => do
      let sender := jsStringOr "" (nonNull info.authority <|> info.source)
      match truthy (info.tokenAmount.join <|> info.amount) with
      | none => return { acc with sender }
      | some amt =>
        let amount ← found (bigIntOfString amt) s!"Cannot convert {amt} to a BigInt"
        return { acc with amount := some amount, sender }

/-- `parseGatewayDeposit`. -/
def parseGatewayDeposit (tx : ParsedTx) (ata : String) : Except String (Option GatewayDeposit) := do
  let acc ← tx.instructions.foldlM (depositScanStep ata) {}
  return acc.amount.map fun amountBaseUnits =>
    { sender := acc.sender, amountBaseUnits, memo := acc.memo }

/-- What the operator's Solana node answers at one moment. -/
structure SolanaNode where
  finalitySlots : ℕ
  getParsedTransaction : String → Except String (Option ParsedTx)
  finalizedHeight : Except String ℕ

structure DepositTransfer where
  slot : ℕ
  amountBaseUnits : ℤ
  deriving DecidableEq, Repr

/-- Whether a slot is final per the buffer. -/
def SolanaNode.isFinal (node : SolanaNode) (slot : ℕ) : Except String Bool :=
  if 0 < node.finalitySlots then do
    let height ← node.finalizedHeight
    return decide (slot + node.finalitySlots ≤ height)
  else return true

/-- `SolanaChain.getDepositTransfer`. -/
def getDepositTransfer (node : SolanaNode) (sourceId ata : String) :
    Except String (Option DepositTransfer) := do
  match ← node.getParsedTransaction sourceId with
  | none => return none
  | some tx =>
    if tx.err then return none
    else
      let final ← node.isFinal tx.slot
      if final = false then return none
      else
        let parsed ← parseGatewayDeposit tx ata
        return parsed.map fun p => { slot := tx.slot, amountBaseUnits := p.amountBaseUnits }

/-- A final wVIZ transfer of the node into `ata`, under the transaction's own signature. -/
def SolanaNode.Final (node : SolanaNode) (sourceId ata : String) (dep : DepositTransfer) : Prop :=
  ∃ tx p, node.getParsedTransaction sourceId = .ok (some tx) ∧ tx.err = false
    ∧ node.isFinal tx.slot = .ok true ∧ parseGatewayDeposit tx ata = .ok (some p)
    ∧ dep = { slot := tx.slot, amountBaseUnits := p.amountBaseUnits }

theorem getDepositTransfer_eq_some {node : SolanaNode} {sourceId ata : String}
    {dep : DepositTransfer} (h : getDepositTransfer node sourceId ata = .ok (some dep)) :
    node.Final sourceId ata dep := by
  unfold getDepositTransfer at h
  rw [bind_eq_ok] at h
  obtain ⟨tx?, htx, h⟩ := h
  cases tx? with
  | none => simp at h
  | some tx =>
    simp only at h
    split_ifs at h with herr
    · simp at h
    · rw [bind_eq_ok] at h
      obtain ⟨final, hfinal, h⟩ := h
      split_ifs at h with hf
      · simp at h
      · simp only [bind_eq_ok, pure_eq_ok] at h
        obtain ⟨parsed, hp, h⟩ := h
        obtain ⟨p, rfl, rfl⟩ := Option.map_eq_some_iff.1 h
        rw [Bool.not_eq_false] at hf
        subst hf
        exact ⟨tx, p, htx, by simpa using herr, hfinal, hp, rfl⟩

end VizGateway
