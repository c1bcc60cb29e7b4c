import VizGateway.Lib.Checks
import VizGateway.Lib.LittleEndian
import VizGateway.Lib.Text
import VizGateway.Lib.Utf8

/-!
# The burn-only deposit program

One instruction on Solana: burn so much of the wVIZ that sits at the deposit address of a VIZ
account. The program reads its arguments with its own slices; the gateway writes them with the
Borsh coder of the program's interface description, for accounts the lookup has let through.
-/

namespace VizGateway

open Checks Text

abbrev Address := List UInt8

/-- How the program ends without a burn. A slice out of bounds, an overflow or an underivable
address aborts it. -/
inductive ProgramFault
  | custom (code : ℕ)
  | outOfBounds
  | overflow
  | noProgramAddress
  | accountBorrowFailed
  deriving DecidableEq, Repr

def BURN_DEPOSIT_DISC : List UInt8 := [34, 175, 58, 161, 153, 178, 166, 59]

def TOKEN_2022_ID : Address :=
  [6, 221, 246, 225, 238, 117, 143, 222, 24, 66, 93, 188, 228, 108, 205, 218, 182, 26, 252, 77,
    131, 185, 13, 39, 254, 189, 249, 40, 216, 161, 139, 252]

def ATA_PROGRAM_ID : Address :=
  [140, 151, 37, 143, 78, 36, 137, 241, 187, 61, 16, 41, 20, 142, 13, 131, 11, 90, 19, 153, 218,
    255, 16, 132, 4, 142, 123, 216, 219, 233, 248, 89]

def SYSTEM_PROGRAM_ID : Address := List.replicate 32 0

def ERR_ACCOUNT_NAME_TOO_LONG : ℕ := 6000

def ERR_INSTRUCTION_FALLBACK_NOT_FOUND : ℕ := 101

def ERR_INSTRUCTION_DID_NOT_DESERIALIZE : ℕ := 102

def ERR_CONSTRAINT_SEEDS : ℕ := 2006

def ERR_CONSTRAINT_ASSOCIATED : ℕ := 2009

def ERR_CONSTRAINT_TOKEN_OWNER : ℕ := 2015

def ERR_ACCOUNT_NOT_ENOUGH_KEYS : ℕ := 3005

def ERR_WRONG_OWNER : ℕ := 3007

def ERR_INVALID_PROGRAM_ID : ℕ := 3008

def ERR_NOT_SYSTEM_OWNED : ℕ := 3011

def ERR_ACCOUNT_NOT_INITIALIZED : ℕ := 3012

/-! ## Slices and 64-bit lengths -/

/-- `s[i]`. -/
def byteAt (s : List UInt8) (i : ℕ) : Except ProgramFault UInt8 := found s[i]? .outOfBounds

/-- `&s[lo..hi]`. -/
def slice (s : List UInt8) (lo hi : ℕ) : Except ProgramFault (List UInt8) := do
  require (lo ≤ hi ∧ hi ≤ s.length) .outOfBounds
  return (s.take hi).drop lo

/-- `a + b` of two `usize`. -/
def usizeAdd (a b : ℕ) : Except ProgramFault ℕ := do
  require (a + b < 2 ^ 64) .overflow
  return a + b

/-! ## The instruction -/

structure AccountView where
  address : Address
  owner : Address
  lamports : ℕ
  /-- `none` where the data is borrowed already. -/
  data : Option (List UInt8)
  deriving DecidableEq, Repr

structure InstructionAccount where
  address : Address
  writable : Bool
  signer : Bool
  deriving DecidableEq, Repr

/-- A call of another program, signed for the address its seeds derive. -/
structure SignedInvocation where
  programId : Address
  accounts : List InstructionAccount
  data : List UInt8
  seeds : List (List UInt8)
  deriving DecidableEq, Repr

def expectTokenOwned (acc : AccountView) : Except ProgramFault Unit := do
  require (¬ (acc.owner = SYSTEM_PROGRAM_ID ∧ acc.lamports = 0)) (.custom ERR_ACCOUNT_NOT_INITIALIZED)
  require (acc.owner = TOKEN_2022_ID) (.custom ERR_WRONG_OWNER)

/-- The discriminator, then Borsh `(String, u64)`. -/
def burnDepositArgs (data : List UInt8) : Except ProgramFault (List UInt8 × ℕ) := do
  require (BURN_DEPOSIT_DISC.isPrefixOf data = true) (.custom ERR_INSTRUCTION_FALLBACK_NOT_FOUND)
  let args := data.drop BURN_DEPOSIT_DISC.length
  require (¬ args.length < 4) (.custom ERR_INSTRUCTION_DID_NOT_DESERIALIZE)
  let b0 ← byteAt args 0
  let b1 ← byteAt args 1
  let b2 ← byteAt args 2
  let b3 ← byteAt args 3
  let nameLen := ofLittleEndian [b0, b1, b2, b3]
  let args ← slice args 4 args.length
  let needed ← usizeAdd nameLen 8
  require (¬ args.length < needed) (.custom ERR_INSTRUCTION_DID_NOT_DESERIALIZE)
  let vizAccount ← slice args 0 nameLen
  require (Utf8.isValid vizAccount = true) (.custom ERR_INSTRUCTION_DID_NOT_DESERIALIZE)
  let hi ← usizeAdd nameLen 8
  let amount ← slice args nameLen hi
  -- `try_into().unwrap()`
  require (amount.length = 8) .outOfBounds
  return (vizAccount, ofLittleEndian amount)

section

variable (findProgramAddress : List (List UInt8) → Address → Option (Address × UInt8))

/-- `b"deposit"`. -/
def depositSeed : List UInt8 := [100, 101, 112, 111, 115, 105, 116]

def processInstruction (programId : Address) (accounts : List AccountView) (data : List UInt8) :
    Except ProgramFault SignedInvocation := do
  let (vizAccount, amount) ← burnDepositArgs data
  match accounts with
  | depositAuthority :: mint :: depositAta :: tokenProgram :: _ =>
    require (depositAuthority.owner = SYSTEM_PROGRAM_ID) (.custom ERR_NOT_SYSTEM_OWNED)
    expectTokenOwned mint
    expectTokenOwned depositAta
    require (tokenProgram.address = TOKEN_2022_ID) (.custom ERR_INVALID_PROGRAM_ID)
    let expectedAuthority ←
      found (findProgramAddress [depositSeed, vizAccount] programId) .noProgramAddress
    require (depositAuthority.address = expectedAuthority.1) (.custom ERR_CONSTRAINT_SEEDS)
    let ataData ← found depositAta.data .accountBorrowFailed
    -- bytes 32..64 are the token account's owner
    require (64 ≤ ataData.length ∧ (ataData.take 64).drop 32 = depositAuthority.address)
      (.custom ERR_CONSTRAINT_TOKEN_OWNER)
    let expectedAta ← found (findProgramAddress
      [depositAuthority.address, TOKEN_2022_ID, mint.address] ATA_PROGRAM_ID) .noProgramAddress
    require (depositAta.address = expectedAta.1) (.custom ERR_CONSTRAINT_ASSOCIATED)
    require (¬ 16 < vizAccount.length) (.custom ERR_ACCOUNT_NAME_TOO_LONG)
    return {
      programId := TOKEN_2022_ID
      accounts := [⟨depositAta.address, true, false⟩, ⟨mint.address, true, false⟩,
        ⟨depositAuthority.address, false, true⟩]
      -- `TokenInstruction::Burn` and its amount
      data := 8 :: littleEndian 8 amount
      seeds := [depositSeed, vizAccount, [expectedAuthority.2]] }
  | _ => .error (.custom ERR_ACCOUNT_NOT_ENOUGH_KEYS)

end

/-! ## The gateway's side -/

/-- `Buffer.from(s, "utf8")`. -/
def utf8Bytes (s : String) : List UInt8 := Utf8.encode s.toList

/-- The data `buildBurnDepositIx` gives the instruction: the interface description's discriminator
and the arguments in Borsh. -/
def burnDepositData (vizAccount : String) (amount : ℕ) : List UInt8 :=
  [34, 175, 58, 161, 153, 178, 166, 59] ++ (littleEndian 4 (utf8Bytes vizAccount).length ++
    (utf8Bytes vizAccount ++ littleEndian 8 amount))

/-- The characters of a name after its first. -/
def isAccountChar (c : Char) : Bool := c.isLower || c.isDigit || c == '.' || c == '-'

/-- `VIZ_ACCOUNT_RE`. -/
def isVizAccount (v : String) : Bool :=
  match v.toList with
  | [] => false
  | c :: cs => c.isLower && 1 ≤ cs.length && cs.length ≤ 31 && cs.all isAccountChar

def normalizeVizAccount (raw : Option String) : Option String :=
  let v := toLowerCase (trim (raw.getD ""))
  if isVizAccount v then some v else none

def MAX_VIZ_ACCOUNT_BYTES : ℕ := 16

inductive LookupResolution
  | badRequest (error : String)
  | notFound (error : String)
  | ok (vizAccount address ata : String)
  deriving DecidableEq, Repr

structure LookupDeps where
  accountExists : String → Except String Bool
  depositAddress : String → String
  depositAta : String → String

def resolveDepositAddress (raw : Option String) (deps : LookupDeps) :
    Except String LookupResolution :=
  match normalizeVizAccount raw with
  | none => .ok (.badRequest "invalid viz_account")
  | some vizAccount => do
    if MAX_VIZ_ACCOUNT_BYTES < (utf8Bytes vizAccount).length then
      return .badRequest
        s!"viz_account exceeds {MAX_VIZ_ACCOUNT_BYTES} bytes (on-chain deposit limit)"
    else
      let found ← deps.accountExists vizAccount
      if found then
        return .ok vizAccount (deps.depositAddress vizAccount) (deps.depositAta vizAccount)
      else return .notFound "viz_account does not exist on VIZ"

end VizGateway
