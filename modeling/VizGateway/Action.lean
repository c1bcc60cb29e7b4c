import Mathlib
import VizGateway.Lib.Text

/-!
# Actions and their canonical form

A source event, a VIZ deposit or a burn on a remote chain, determines one `CanonicalAction`: the
canonical string of its fields, tagged with their byte lengths, is hashed into the digest every
operator recomputes. Amounts are `bigint`s, so integers.
-/

namespace VizGateway

open Text

/-- Remote chains the gateway can mint wrapped VIZ on. -/
inductive RemoteChainId
  | gram
  | solana
  deriving DecidableEq, Repr

/-- Which way an action moves value. -/
inductive Direction
  | pegIn
  | pegOut
  | gramReturn
  deriving DecidableEq, Repr

/-- A value of an enumeration as it arrives on the wire, where the cast checks nothing. -/
inductive Wire (α : Type)
  | known (a : α)
  | other (raw : String)
  deriving DecidableEq, Repr

instance {α : Type} : Coe α (Wire α) := ⟨.known⟩

def RemoteChainId.toString : RemoteChainId → String
  | .gram => "GRAM"
  | .solana => "SOLANA"

def Direction.toString : Direction → String
  | .pegIn => "PEG_IN"
  | .pegOut => "PEG_OUT"
  | .gramReturn => "GRAM_RETURN"

/-- The text of a wire value, given the text of the known ones. -/
def Wire.toString {α : Type} (str : α → String) : Wire α → String
  | .known a => str a
  | .other raw => raw

def Wire.direction (raw : String) : Wire Direction :=
  if raw = "PEG_IN" then .known .pegIn
  else if raw = "PEG_OUT" then .known .pegOut
  else if raw = "GRAM_RETURN" then .known .gramReturn
  else .other raw

def Wire.remoteChain (raw : String) : Wire RemoteChainId :=
  if raw = "GRAM" then .known .gram
  else if raw = "SOLANA" then .known .solana
  else .other raw

/-- A confirmed VIZ transfer to a backing account; `sender` and `receiver` are its `from` and
`to`. -/
structure VizDeposit where
  trxId : String
  opIndex : ℕ
  blockNum : ℕ
  sender : String
  receiver : String
  amountMilliViz : ℤ
  remoteChain : RemoteChainId
  remoteDestination : String
  destinationValid : Bool
  deriving DecidableEq, Repr

/-- A confirmed burn or return of wrapped VIZ on a remote chain; `sender` is its `from`. -/
structure RemoteBurn where
  chain : RemoteChainId
  sourceId : String
  height : ℕ
  sender : String
  amountMilliViz : ℤ
  homeDestination : String
  deriving DecidableEq, Repr

/-- The destination action a source event determines. -/
structure CanonicalAction where
  direction : Wire Direction
  remoteChain : Option (Wire RemoteChainId)
  id : String
  recipient : String
  amountMilliViz : ℤ
  digest : String
  deriving DecidableEq, Repr

/-! ## Canonical strings -/

/-- One field, its key and value each behind its UTF-8 length. -/
def canonicalField (f : String × String) : String :=
  f.1.utf8ByteSize.repr ++ ":" ++ f.1 ++ "=" ++ f.2.utf8ByteSize.repr ++ ":" ++ f.2

/-- The length-prefixed encoding of the fields, joined by bars. -/
def canonicalString (fields : List (String × String)) : String :=
  String.intercalate "|" (fields.map canonicalField)

/-- The text of a `bigint`. -/
def bigintText (n : ℤ) : String := toString n

/-- The source id of a deposit, `<trxId>:<opIndex>`. -/
def VizDeposit.id (d : VizDeposit) : String := d.trxId ++ ":" ++ d.opIndex.repr

def pegInBody (d : VizDeposit) : String :=
  canonicalString
    [("v", "1"), ("dir", "PEG_IN"), ("src", d.id), ("chain", d.remoteChain.toString),
      ("recipient", d.remoteDestination), ("amount_milli_viz", bigintText d.amountMilliViz)]

def pegOutBody (b : RemoteBurn) : String :=
  canonicalString
    [("v", "1"), ("dir", "PEG_OUT"), ("chain", b.chain.toString), ("src", b.sourceId),
      ("recipient", b.homeDestination), ("amount_milli_viz", bigintText b.amountMilliViz)]

section

variable (digestOf : String → String)

/-- The mint a VIZ deposit determines. -/
def canonicalPegIn (d : VizDeposit) : CanonicalAction where
  direction := .known .pegIn
  id := d.id
  remoteChain := some d.remoteChain
  recipient := d.remoteDestination
  amountMilliViz := d.amountMilliViz
  digest := digestOf (pegInBody d)

/-- The VIZ release a burn determines. -/
def canonicalPegOut (b : RemoteBurn) : CanonicalAction where
  direction := .known .pegOut
  id := b.sourceId
  recipient := b.homeDestination
  amountMilliViz := b.amountMilliViz
  remoteChain := some b.chain
  digest := digestOf (pegOutBody b)

@[simp] theorem canonicalPegIn_id (d : VizDeposit) : (canonicalPegIn digestOf d).id = d.id := rfl

@[simp] theorem canonicalPegOut_id (b : RemoteBurn) :
    (canonicalPegOut digestOf b).id = b.sourceId := rfl

end

/-! ## Source ids -/

/-- A deposit's id determines its transaction, when transaction ids hold no colon. -/
theorem VizDeposit.id_inj {d e : VizDeposit} (hd : ':' ∉ d.trxId.toList)
    (he : ':' ∉ e.trxId.toList) (h : d.id = e.id) : d.trxId = e.trxId ∧ d.opIndex = e.opIndex := by
  have hi : d.trxId.toList.length = e.trxId.toList.length := by
    have h1 := indexOf_append (b := d.opIndex.repr) hd
    have h2 := indexOf_append (b := e.opIndex.repr) he
    unfold VizDeposit.id at h
    rw [show (":" : String) = (':').toString from rfl] at h
    rw [h, h2] at h1
    simpa using h1.symm
  unfold VizDeposit.id at h
  rw [String.append_assoc, String.append_assoc] at h
  have ht : d.trxId = e.trxId := by
    rw [← takeStr_append d.trxId (":" ++ d.opIndex.repr), h, hi, takeStr_append]
  refine ⟨ht, repr_injective ?_⟩
  rw [ht] at h
  have h' := congrArg String.toList h
  simp only [String.toList_append, List.append_cancel_left_eq] at h'
  exact String.toList_inj.1 h'

/-! ## Addresses on the remote chains -/

/-- `[1-9A-HJ-NP-Za-km-z]`. -/
def isBase58Char (c : Char) : Bool :=
  ('1' ≤ c && c ≤ '9') || ('A' ≤ c && c ≤ 'H') || ('J' ≤ c && c ≤ 'N') || ('P' ≤ c && c ≤ 'Z') ||
    ('a' ≤ c && c ≤ 'k') || ('m' ≤ c && c ≤ 'z')

/-- `[A-Za-z0-9_-]`. -/
def isBase64UrlChar (c : Char) : Bool := c.isAlphanum || c == '_' || c == '-'

/-- `SOLANA_ADDR_RE`. -/
def matchesSolanaAddr (s : String) : Bool :=
  32 ≤ s.toList.length && s.toList.length ≤ 44 && s.toList.all isBase58Char

/-- `GRAM_ADDR_RE`. -/
def matchesGramAddr (s : String) : Bool :=
  match s.toList with
  | c :: 'Q' :: rest => (c == 'E' || c == 'U') && rest.length == 46 && rest.all isBase64UrlChar
  | _ => false

/-- Whether an address is a mint target on its chain. -/
def isValidRemoteAddress (chain : RemoteChainId) (address : String) : Bool :=
  if address = "" then false
  else if hasChar address ':' then false
  else match chain with
    | .solana => matchesSolanaAddr address
    | .gram => matchesGramAddr address

theorem isValidRemoteAddress_ne_empty {chain : RemoteChainId} {address : String}
    (h : isValidRemoteAddress chain address = true) : address ≠ "" := by
  rintro rfl
  simp [isValidRemoteAddress] at h

end VizGateway
